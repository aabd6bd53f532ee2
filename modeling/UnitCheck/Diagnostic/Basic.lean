import UnitCheck.Span

/-!
# Diagnostics

A diagnostic is a coded message at a place in a source file, an error or a warning, with notes that
may point elsewhere.  Diagnostics are collected in lists that only grow at the end.
-/

set_option autoImplicit false

namespace UnitCheck

/-- How grave a diagnostic is: an error fails the unit, a warning does not. -/
inductive Severity where
  | error
  | warning
deriving DecidableEq, Inhabited

/-- A remark that goes with a diagnostic. -/
structure Note where
  message : String
  span : Option Span := none
deriving DecidableEq, Inhabited

/-- A message about a source file. -/
structure Diagnostic where
  code : String
  severity : Severity
  message : String := ""
  span : Span := Span.ofFile ""
  notes : List Note := []
deriving DecidableEq, Inhabited

namespace Diagnostic

/-- Whether a diagnostic is an error. -/
def isError (d : Diagnostic) : Bool := d.severity == .error

/-- Whether a diagnostic is a warning. -/
def isWarning (d : Diagnostic) : Bool := d.severity == .warning

/-- The diagnostic with the file of its own span filled in where that has none.  The spans of its
notes stay as they are. -/
def inFile (file : String) (d : Diagnostic) : Diagnostic :=
  { d with span := d.span.inFile file }

/-! ## Lists of diagnostics -/

/-- How many errors there are. -/
def errorCount (ds : List Diagnostic) : Nat := ds.countP isError

/-- How many warnings there are. -/
def warningCount (ds : List Diagnostic) : Nat := ds.countP isWarning

/-- Whether there is an error. -/
def hasErrors (ds : List Diagnostic) : Bool := ds.any isError

/-- Whether there is a warning. -/
def hasWarnings (ds : List Diagnostic) : Bool := ds.any isWarning

end Diagnostic

end UnitCheck
