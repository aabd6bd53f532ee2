import UnitCheck.Toml.Parse

/-!
# Configuration

A configuration says whether checking stops at the first failure and how results are printed.  It is
a TOML document with the tables `check` and `output`; any other key is an error.

There are two other forms.  A table of options may be an array of their values in order, where
elements beyond the last option are not looked at.  And a format may be a table with the format as
its only key, over something empty.
-/

set_option autoImplicit false

namespace UnitCheck

/-- How results are printed. -/
inductive OutputFormat where
  | human
  | json
deriving DecidableEq, Inhabited

namespace OutputFormat

/-- The name of a format in a configuration. -/
def name : OutputFormat → String
  | .human => "human"
  | .json => "json"

/-- The format of a name; the names are matched exactly, case included. -/
def ofName? (name : String) : Option OutputFormat :=
  [("human", OutputFormat.human), ("json", .json)].lookup name

end OutputFormat

/-- The options of the program. -/
structure Config where
  /-- Stop a unit at its first failure. -/
  failFast : Bool := false
  format : OutputFormat := .human
deriving DecidableEq, Inhabited

namespace Config

open Toml

/-! ## Reading -/

/-- Read a truth value. -/
def readBool : Value → Option Bool
  | .scalar (.boolean b) => some b
  | _ => none

/-- Whether a value has nothing in it. -/
def isEmpty : Value → Bool
  | .array items => items.isEmpty
  | .table _ entries => entries.isEmpty
  | _ => false

/-- Read a format: its name, or a table with the name as its only key. -/
def readFormat : Value → Option OutputFormat
  | .scalar (.string s) => OutputFormat.ofName? s
  | .table _ [(key, v)] => if isEmpty v then OutputFormat.ofName? key else none
  | _ => none

/-- Read a table with a single option, which may be left out. -/
def readOption {α : Type} (key : String) (default : α) (read : Value → Option α) :
    Value → Option α
  | .table _ [] => some default
  | .table _ [(k, v)] => if k = key then read v else none
  | .array [] => some default
  | .array (v :: _) => read v
  | .tables last before =>
    match (last :: before).getLast? with
    | some first => read (.table .header first)
    | none => some default
  | _ => none

/-- The configuration that a table describes. -/
def ofTable? (t : Table) : Option Config := do
  if t.all fun e => e.1 == "check" || e.1 == "output" then
    let failFast ←
      match t.lookup "check" with
      | none => some false
      | some v => readOption "fail_fast" false readBool v
    let format ←
      match t.lookup "output" with
      | none => some .human
      | some v => readOption "format" .human readFormat v
    return { failFast, format }
  else none

/-- Read a configuration. -/
def parse (text : String) : Option Config := (Toml.parse text).bind ofTable?

/-! ## Writing -/

/-- A truth value as TOML writes it. -/
def boolText (b : Bool) : String := if b then "true" else "false"

/-- The document of a configuration. -/
def render (c : Config) : String :=
  "[check]\nfail_fast = " ++ boolText c.failFast ++ "\n\n[output]\nformat = \"" ++ c.format.name ++
    "\"\n"

end Config

end UnitCheck
