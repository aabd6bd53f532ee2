import UnitCheck.Diagnostic.Text
import UnitCheck.Resolve
import UnitCheck.Unit.Build

/-!
# Reports

Checking a built unit resolves its expressions.  The report has a result per expression and the
diagnostics: first the warnings of building, then the failures.  A diagnostic whose span names no
file is about the unit's file.
-/

set_option autoImplicit false

namespace UnitCheck

/-- The outcome of checking a unit. -/
structure Report where
  file : String
  /-- One result per expression, up to the first failure if checking stops there. -/
  results : List (Except ResolveError Ty)
  diagnostics : List Diagnostic

namespace BuiltUnit

variable {ι : Type}

/-- Resolve the expressions of a unit. -/
def check (failFast : Bool) (b : BuiltUnit ι) : Report :=
  let checker : Checker := { env := b.env, failFast := failFast }
  let (results, checker) := checker.resolveAll b.exprs
  ⟨b.file, results, (b.diagnostics ++ checker.diagnostics).map (Diagnostic.inFile b.file)⟩

end BuiltUnit

namespace Report

/-- Whether a report has an error in it. -/
def hasErrors (r : Report) : Bool := Diagnostic.hasErrors r.diagnostics

/-- The report on a unit that could not be built. -/
def ofError (path : String) (e : UnitError) : Report := ⟨path, [], [e.toDiagnostic path]⟩

/-- One result with its position. -/
def resultToJson (result : Except ResolveError Ty) (index : Nat) : Json :=
  .obj [("index", .nat index),
    match result with
    | .ok ty => ("type", .str ty.name)
    | .error e => ("error", .str e.code)]

/-- The document of a report.  All keys are in order, so that equal reports have equal texts. -/
def toJson (r : Report) : Json :=
  Json.sortKeys (.obj [("file", .str r.file),
    ("results", .arr (r.results.zipIdx.map fun (result, index) => resultToJson result index)),
    ("diagnostics", Diagnostic.listToJson r.diagnostics)])

end Report

end UnitCheck
