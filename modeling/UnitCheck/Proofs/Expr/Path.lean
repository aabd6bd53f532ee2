import UnitCheck.Proofs.Expr.Within

/-!
# Paths in an expression

A path leads from the root of an expression to one of its nodes, by steps into what is called, into
an argument, or into a statement of a body.  `Expr.at?` follows a path by looking at the tree, so
what holds of the nodes at all paths holds of all nodes, each of them told from the others by where
it stands.

Changing ids and scopes commutes with following a path (`Expr.at?_map`).  For binding this means
that the nodes of the two trees correspond path by path, which is how `Expr.bind_every_node` says
that binding leaves none out.
-/

set_option autoImplicit false

namespace UnitCheck

variable {ι κ : Type}

namespace Expr

/-- A step from a node to one right below it. -/
inductive Step where
  /-- To what is called. -/
  | receiver
  | arg (index : Nat)
  /-- To the expression in a statement of the body. -/
  | body (index : Nat)
deriving DecidableEq

/-- The steps from the root of an expression to one of its nodes. -/
abbrev Path := List Step

/-- The node that a step leads to, if there is one. -/
def child? : Expr ι → Step → Option (Expr ι)
  | .call _ receiver _, .receiver => some receiver
  | .call _ _ args, .arg i => args[i]?
  | .lambda _ body, .body i => body[i]?.bind fun stmt => stmt.exprs.head?
  | _, _ => none

/-- The node at the end of a path, if there is one. -/
def at? : Expr ι → Path → Option (Expr ι)
  | e, [] => some e
  | e, a :: p => (e.child? a).bind fun c => c.at? p

@[simp] theorem at?_nil (e : Expr ι) : e.at? [] = some e := by
  rw [at?]

@[simp] theorem at?_cons (e : Expr ι) (a : Step) (p : Path) :
    e.at? (a :: p) = (e.child? a).bind fun c => c.at? p := by
  rw [at?]

/-! ## Paths in a changed tree -/

theorem child?_map (f : ι → κ) (g : Option ScopeId → Option ScopeId) (e : Expr ι) (a : Step) :
    (e.map f g).child? a = (e.child? a).map (Expr.map f g) := by
  cases e with
  | literal site value => rfl
  | ident site name => rfl
  | call site receiver args =>
    cases a with
    | receiver => rfl
    | body i => rfl
    | arg i => rw [Expr.map, child?, child?, mapAll_eq_map, List.getElem?_map]
  | lambda site body =>
    cases a with
    | receiver => rfl
    | arg i => rfl
    | body i =>
      rw [Expr.map, child?, child?, Stmt.mapAll_eq_map, List.getElem?_map]
      cases body[i]? with
      | none => rfl
      | some stmt =>
        rw [Option.map_some, Option.bind_some, Option.bind_some, Stmt.exprs_map, List.head?_map]

/-- **The changed tree has the same paths**, and changed nodes at their ends. -/
theorem at?_map (f : ι → κ) (g : Option ScopeId → Option ScopeId) (e : Expr ι) (p : Path) :
    (e.map f g).at? p = (e.at? p).map (Expr.map f g) := by
  induction p generalizing e with
  | nil => simp
  | cons a p ih =>
    rw [at?_cons, at?_cons, child?_map]
    cases e.child? a with
    | none => rfl
    | some c => exact ih c

/-! ## Binding -/

theorem bind_bind (e : Expr ι) (s t : ScopeId) : (e.bind s).bind t = e.bind s := by
  rw [bind, bind, map_map]
  rfl

/-- **Binding gives every node a scope, once, and changes nothing else.**  A path leads somewhere
in the bound expression exactly if it does in the expression itself, and the node at its end has
the scope that it had there, or the given one if it had none.  Apart from scopes the two are equal:
node by node they are of the same form, with the same ids, spans, names, literals and types.
Binding again, to any scope, has no effect. -/
theorem bind_every_node (e : Expr ι) (s : ScopeId) :
    (∀ p : Path, ((e.bind s).at? p).map scope = (e.at? p).map fun x => some (x.scope.getD s)) ∧
    e.Binds s (e.bind s) ∧
    ∀ t : ScopeId, (e.bind s).bind t = e.bind s := by
  refine ⟨fun p => ?_, binds_bind s e, bind_bind e s⟩
  rw [bind, at?_map, Option.map_map]
  refine congrArg (fun h => (e.at? p).map h) (funext fun x => ?_)
  exact scope_map _ _ x

end Expr

end UnitCheck
