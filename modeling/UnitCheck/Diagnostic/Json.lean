import UnitCheck.Diagnostic.Basic
import UnitCheck.Json.Printer

/-!
# Diagnostics as documents

The JSON form of diagnostics.  A note without a span leaves the member out, and a diagnostic without
notes leaves theirs out; reading fills both in again.  The array form of a note always has both
elements, `null` standing for no span.
-/

set_option autoImplicit false

namespace UnitCheck

namespace Severity

/-- The name of a severity, in documents and in texts alike. -/
def name : Severity → String
  | .error => "error"
  | .warning => "warning"

/-- The severities by their names. -/
def variants : List (String × Severity) := [("error", .error), ("warning", .warning)]

/-- The document of a severity, which is its name. -/
def toJson (s : Severity) : Json := .str s.name

/-- A severity is its name, or an object with its name as the only key and `null` as the value. -/
def ofJson? : Json → Option Severity
  | .str s => variants.lookup s
  | .obj [(s, .null)] => variants.lookup s
  | _ => none

end Severity

namespace Note

/-- The document of a note. -/
def toJson (n : Note) : Json :=
  .obj (("message", .str n.message) :: (n.span.map fun s => ("span", s.toJson)).toList)

/-- Read a note.  In the array form the span is not optional, which is why the length is looked at
first. -/
def ofJson? (j : Json) : Option Note := do
  match j with
  | .arr items => if items.length < 2 then none
  | _ => pure ()
  match ← j.fields ["message", "span"] with
  | [message, span] =>
    return {
      message := ← Json.required Json.asString message
      span := ← Json.withDefault none (Json.orNull Span.ofJson?) span }
  | _ => none

end Note

namespace Diagnostic

/-- The document of a diagnostic. -/
def toJson (d : Diagnostic) : Json :=
  .obj ([("code", .str d.code), ("severity", d.severity.toJson), ("message", .str d.message),
    ("span", d.span.toJson)] ++
    (if d.notes = [] then [] else [("notes", .arr (d.notes.map Note.toJson))]))

/-- Read a diagnostic.  Everything but the notes must be there. -/
def ofJson? (j : Json) : Option Diagnostic := do
  match ← j.fields ["code", "severity", "message", "span", "notes"] with
  | [code, severity, message, span, notes] =>
    return {
      code := ← Json.required Json.asString code
      severity := ← Json.required Severity.ofJson? severity
      message := ← Json.required Json.asString message
      span := ← Json.required Span.ofJson? span
      notes := ← Json.withDefault [] (Json.asList Note.ofJson?) notes }
  | _ => none

/-- The document of a list of diagnostics. -/
def listToJson (ds : List Diagnostic) : Json := .arr (ds.map toJson)

/-- Read a list of diagnostics. -/
def listOfJson? : Json → Option (List Diagnostic) := Json.asList ofJson?

end Diagnostic

end UnitCheck
