import UnitCheck.Declaration

/-!
# Scopes

An environment is a tree of scopes.  Scopes are numbered in the order they are opened, `0` being the
root, so a scope's parent always has the smaller number.  Each scope holds at most one declaration
per name.  A lookup goes from a scope to its parent until some scope declares the name:
`Environment.lineage` is that way up.
-/

set_option autoImplicit false

namespace UnitCheck

/-- The number of a scope. -/
structure ScopeId where
  index : UInt32
deriving DecidableEq, Inhabited

namespace ScopeId

/-- A scope as messages name it. -/
def describe (s : ScopeId) : String := "#" ++ s.index.toNat.repr

end ScopeId

/-- One scope: the scope around it, none for the root, and its own declarations. -/
structure Scope where
  parent : Option ScopeId := none
  declarations : List Declaration := []
deriving Inhabited

namespace Scope

/-- The declaration of a name in this very scope. -/
def get? (s : Scope) (name : String) : Option Declaration :=
  s.declarations.find? fun d => d.name == name

end Scope

/-- Why a scope or a declaration was refused. -/
inductive ScopeError where
  | unknownScope (scope : ScopeId)
  | duplicate (name : String) (span previous : Span)
  | queryDeclaration (name : String)
deriving DecidableEq

namespace ScopeError

/-- The message about a refusal. -/
def message : ScopeError → String
  | .unknownScope s => "scope " ++ s.describe ++ " does not exist"
  | .duplicate name _ _ => "`" ++ name ++ "` is already declared in this scope"
  | .queryDeclaration name => "`" ++ name ++ "` is a dependency token and cannot be declared"

end ScopeError

/-- A tree of scopes; the scope with number `k` is at position `k`. -/
structure Environment where
  scopes : Array Scope

namespace Environment

/-- The environment with nothing but an empty root scope. -/
def new : Environment := ⟨#[{}]⟩

instance : Inhabited Environment := ⟨new⟩

/-- The scope that every other one is inside of. -/
def root : ScopeId := ⟨0⟩

/-- How many scopes there are, the root included. -/
def count (env : Environment) : Nat := env.scopes.size

/-- The scope with a given number. -/
def scope? (env : Environment) (s : ScopeId) : Option Scope := env.scopes[s.index.toNat]?

/-- Whether there is a scope with a given number. -/
def contains (env : Environment) (s : ScopeId) : Bool := decide (s.index.toNat < env.count)

/-- The scope around a scope. -/
def parent (env : Environment) (s : ScopeId) : Option ScopeId := (env.scope? s).bind Scope.parent

/-! ## Growing -/

/-- Open a scope inside another. -/
def child (env : Environment) (parent : ScopeId) : Except ScopeError (ScopeId × Environment) :=
  if env.contains parent then
    .ok (⟨env.count.toUInt32⟩, ⟨env.scopes.push { parent := some parent }⟩)
  else .error (.unknownScope parent)

/-- Put a declaration into a scope. -/
def declare (env : Environment) (s : ScopeId) (d : Declaration) : Except ScopeError Environment :=
  if d.isQuery then .error (.queryDeclaration d.name)
  else
    match env.scope? s with
    | none => .error (.unknownScope s)
    | some scope =>
      match scope.get? d.name with
      | some previous => .error (.duplicate d.name d.span previous.span)
      | none =>
        let grown := { scope with declarations := d :: scope.declarations }
        .ok ⟨env.scopes.setIfInBounds s.index.toNat grown⟩

/-! ## Looking up -/

/-- The scope with the given number and the scopes around it, innermost first.  A parent is older
than its child, which is why the way up ends. -/
def lineageFrom (env : Environment) (k : Nat) : List Scope :=
  match env.scopes[k]? with
  | none => []
  | some scope =>
    match scope.parent with
    | none => [scope]
    | some p => if p.index.toNat < k then scope :: lineageFrom env p.index.toNat else [scope]
termination_by k

/-- A scope and the scopes around it, innermost first; nothing if there is no such scope. -/
def lineage (env : Environment) (s : ScopeId) : List Scope := env.lineageFrom s.index.toNat

/-- The declaration that a name has in a scope, the innermost one first. -/
def find? (env : Environment) (s : ScopeId) (name : String) : Option Declaration :=
  (env.lineage s).findSome? fun scope => scope.get? name

/-- The declaration that a name has in the scopes around a scope, which one in the scope itself
hides. -/
def shadowed? (env : Environment) (s : ScopeId) (name : String) : Option Declaration :=
  (env.parent s).bind fun p => env.find? p name

end Environment

end UnitCheck
