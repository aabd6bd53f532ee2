import UnitCheck.Diagnostic.Basic
import UnitCheck.Diagnostic.Code
import UnitCheck.Unit.Basic

/-!
# Building a unit

Building a unit puts its declarations into scopes and binds its expressions.  Everything is done in
the order of the document, and the first thing that is refused ends it.  A declaration that hides
one of the same name further out is accepted with a warning.
-/

set_option autoImplicit false

namespace UnitCheck

/-- A unit with its scopes in place and its expressions bound. -/
structure BuiltUnit (ι : Type) where
  file : String
  source : Option String
  env : Environment
  exprs : List (Expr ι)
  /-- The warnings about hidden declarations. -/
  diagnostics : List Diagnostic

/-- Scopes that are being filled, and the warnings so far. -/
structure Building where
  env : Environment := .new
  warnings : List Diagnostic := []

namespace Building

/-- The warning about a declaration that hides another one. -/
def shadowWarning (d outer : Declaration) : Diagnostic where
  code := Code.shadowedDeclaration
  severity := .warning
  message := "`" ++ d.name ++ "` shadows a declaration in an outer scope"
  span := d.span
  notes := [{ message := "previous declaration is here", span := some outer.span }]

/-- Put a declaration into a scope. -/
def declare (s : ScopeId) (b : Building) (d : Declaration) : Except ScopeError Building := do
  let warning := (b.env.shadowed? s d.name).map (shadowWarning d)
  let env ← b.env.declare s d
  return ⟨env, b.warnings ++ warning.toList⟩

/-- Open a scope and fill it. -/
def addScope (b : Building) (spec : ScopeSpec) : Except ScopeError Building := do
  let (s, env) ← b.env.child spec.parent
  spec.declarations.foldlM (declare s) { b with env := env }

end Building

namespace Entry

variable {ι : Type}

/-- The expression of an entry, bound to the entry's scope. -/
def bound (env : Environment) (e : Entry ι) : Except ScopeError (Expr ι) :=
  if env.contains e.scope then .ok (e.expr.bind e.scope) else .error (.unknownScope e.scope)

end Entry

namespace CompilationUnit

variable {ι : Type}

/-- Build a unit. -/
def build (u : CompilationUnit ι) : Except ScopeError (BuiltUnit ι) := do
  let b ← u.declarations.foldlM (Building.declare Environment.root) {}
  let b ← u.scopes.foldlM Building.addScope b
  let exprs ← u.entries.mapM (Entry.bound b.env)
  return ⟨u.file, u.source, b.env, exprs, b.warnings⟩

end CompilationUnit

namespace BuiltUnit

variable {ι : Type}

/-- The source text, empty if the unit has none. -/
def sourceText (b : BuiltUnit ι) : String := b.source.getD ""

/-- The dependencies of every expression. -/
def dependencies (b : BuiltUnit ι) : List (List Declaration) := b.exprs.map Expr.dependencies

end BuiltUnit

/-! ## Units that cannot be built -/

/-- Why there is no built unit. -/
inductive UnitError where
  | unreadable (path reason : String)
  | malformed
  | refused (e : ScopeError)
deriving DecidableEq

namespace UnitError

/-- The code of an error. -/
def code : UnitError → String
  | .unreadable _ _ => Code.unreadableUnit
  | .malformed => Code.malformedUnit
  | .refused (.unknownScope _) => Code.unknownScope
  | .refused (.duplicate _ _ _) => Code.duplicateDeclaration
  | .refused (.queryDeclaration _) => Code.queryDeclaration

/-- What is wrong.  A document is accepted or not, so there is no reason to give for a malformed
one. -/
def message : UnitError → String
  | .unreadable path reason => "could not read " ++ path ++ ": " ++ reason
  | .malformed => "malformed unit: ?"
  | .refused e => e.message

/-- A span, or the whole of a file if the span names none. -/
def spanIn (file : String) (s : Span) : Span := if s.file = "" then Span.ofFile file else s

/-- The diagnostic for a unit that was expected in the given file. -/
def toDiagnostic (file : String) (e : UnitError) : Diagnostic :=
  match e with
  | .refused (.duplicate _ span previous) =>
    { code := e.code, severity := .error, message := e.message, span := spanIn file span,
      notes :=
        [{ message := "previous declaration is here", span := some (spanIn file previous) }] }
  | _ => { code := e.code, severity := .error, message := e.message, span := Span.ofFile file }

end UnitError

namespace CompilationUnit

/-- Read and build a unit. -/
def load (text path : String) : Except UnitError (BuiltUnit (Option NodeId)) :=
  match parse text path with
  | none => .error .malformed
  | some u =>
    match u.build with
    | .error e => .error (.refused e)
    | .ok b => .ok b

end CompilationUnit

end UnitCheck
