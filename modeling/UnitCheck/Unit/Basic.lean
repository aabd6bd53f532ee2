import UnitCheck.Expr.Json
import UnitCheck.Expr.Numbering
import UnitCheck.Json.Printer
import UnitCheck.Json.Reader

/-!
# Compilation units

A unit is a file's declarations, nested scopes and expressions.  The root scope is `0` and holds the
unit's own declarations; the scope at position `i` of the list is `i + 1`.  `CompilationUnit.parse`
reads the document of a unit.
-/

set_option autoImplicit false

namespace UnitCheck

/-- A nested scope of a unit. -/
structure ScopeSpec where
  parent : ScopeId := ⟨0⟩
  declarations : List Declaration := []

/-- An expression of a unit and the scope it stands in. -/
structure Entry (ι : Type) where
  scope : ScopeId := ⟨0⟩
  expr : Expr ι

/-- A unit as its document describes it. -/
structure CompilationUnit (ι : Type) where
  file : String := ""
  source : Option String := none
  declarations : List Declaration := []
  scopes : List ScopeSpec := []
  entries : List (Entry ι) := []

/-! ## Ids -/

namespace Entry

/-- Change every id in an entry. -/
def mapId {ι κ : Type} (f : ι → κ) (e : Entry ι) : Entry κ := ⟨e.scope, e.expr.mapId f⟩

/-- Give every node of an entry an id. -/
def number (e : Entry (Option NodeId)) : Numbered (Entry NodeId) := do
  let expr ← e.expr.number
  return ⟨e.scope, expr⟩

end Entry

namespace CompilationUnit

/-- Change every id in a unit. -/
def mapId {ι κ : Type} (f : ι → κ) (u : CompilationUnit ι) : CompilationUnit κ :=
  { u with entries := u.entries.map (Entry.mapId f) }

/-- Give every node of a unit an id. -/
def number (u : CompilationUnit (Option NodeId)) : Numbered (CompilationUnit NodeId) := do
  let entries ← u.entries.mapM Entry.number
  return { u with entries := entries }

/-- The ids of all nodes. -/
def ids {ι : Type} (u : CompilationUnit ι) : List ι := u.entries.flatMap fun e => e.expr.ids

end CompilationUnit

/-! ## Documents -/

namespace ScopeId

/-- The document of a scope's number. -/
def toJson (s : ScopeId) : Json := Json.ofUInt32 s.index

/-- Read the number of a scope. -/
def ofJson? (j : Json) : Option ScopeId := (Json.asUInt32 j).map ScopeId.mk

end ScopeId

namespace ScopeSpec

/-- The document of a scope. -/
def toJson (s : ScopeSpec) : Json :=
  .obj [("parent", s.parent.toJson), ("declarations", .arr (s.declarations.map Declaration.toJson))]

/-- Read a scope that nests at most `room` deep. -/
def ofJson? (room : Nat) (j : Json) : Option ScopeSpec := do
  match ← j.fields ["parent", "declarations"] with
  | [parent, declarations] =>
    return {
      parent := ← Json.withDefault ⟨0⟩ ScopeId.ofJson? parent
      declarations := ← Json.withDefault [] (Json.asList (Declaration.ofJson? (room - 2)))
        declarations }
  | _ => none

end ScopeSpec

namespace Entry

/-- The document of an entry. -/
def toJson (e : Entry NodeId) : Json :=
  .obj [("scope", e.scope.toJson), ("expr", e.expr.toJson)]

/-- Read an entry that nests at most `room` deep. -/
def ofJson? (room : Nat) (j : Json) : Option (Entry (Option NodeId)) := do
  match ← j.fields ["scope", "expr"] with
  | [scope, expr] =>
    return {
      scope := ← Json.withDefault ⟨0⟩ ScopeId.ofJson? scope
      expr := ← Json.required (Expr.ofJson? (room - 1)) expr }
  | _ => none

end Entry

namespace CompilationUnit

/-- The document of a unit. -/
def toJson (u : CompilationUnit NodeId) : Json :=
  .obj ([("file", .str u.file)] ++ (u.source.map fun s => ("source", .str s)).toList ++
    [("declarations", .arr (u.declarations.map Declaration.toJson)),
      ("scopes", .arr (u.scopes.map ScopeSpec.toJson)),
      ("expressions", .arr (u.entries.map Entry.toJson))])

/-- Read a unit that nests at most `room` deep. -/
def ofJson? (room : Nat) (j : Json) : Option (CompilationUnit (Option NodeId)) := do
  match ← j.fields ["file", "source", "declarations", "scopes", "expressions"] with
  | [file, source, declarations, scopes, entries] =>
    return {
      file := ← Json.withDefault "" Json.asString file
      source := ← Json.withDefault none (Json.orNull Json.asString) source
      declarations := ← Json.withDefault [] (Json.asList (Declaration.ofJson? (room - 2)))
        declarations
      scopes := ← Json.withDefault [] (Json.asList (ScopeSpec.ofJson? (room - 2))) scopes
      entries := ← Json.withDefault [] (Json.asList (Entry.ofJson? (room - 2))) entries }
  | _ => none

/-- The unit with its file filled in where it has none. -/
def inFile {ι : Type} (path : String) (u : CompilationUnit ι) : CompilationUnit ι :=
  if u.file = "" then { u with file := path } else u

/-- The text of a unit's document. -/
def render (u : CompilationUnit NodeId) : String := u.toJson.render

/-- Read the document of a unit.  The path is its file if the document names none. -/
def parse (text path : String) : Option (CompilationUnit (Option NodeId)) :=
  ((Json.parse text).bind (ofJson? Json.maxDepth)).map (inFile path)

end CompilationUnit

end UnitCheck
