import UnitCheck.Proofs.Expr.Map

/-!
# The nodes of an expression

`Expr.Within x e` says that `x` is a node of `e`: the expression itself, or a node of what it calls,
of an argument, or of an expression in the body of a lambda.  Which nodes there are is not told by
the way in which trees are changed, so it can be asked of a changed tree what became of all nodes.
They are the nodes of the old tree, each changed by itself (`Within.exists_of_map`).  Hence binding
leaves no node out, however deep it is (`scope_of_within_bind`).
-/

set_option autoImplicit false

namespace UnitCheck

variable {ι κ : Type}

/-- An expression is a node of another one: it stands in it at some depth, or is that expression. -/
inductive Expr.Within (x : Expr ι) : Expr ι → Prop
  | self : Within x x
  | receiver (site : Site ι) {receiver : Expr ι} (args : List (Expr ι)) (h : Within x receiver) :
    Within x (.call site receiver args)
  | arg (site : Site ι) (receiver : Expr ι) {args : List (Expr ι)} {a : Expr ι} (ha : a ∈ args)
    (h : Within x a) : Within x (.call site receiver args)
  | body (site : Site ι) {body : List (Stmt ι)} {stmt : Stmt ι} {e : Expr ι} (hstmt : stmt ∈ body)
    (he : e ∈ stmt.exprs) (h : Within x e) : Within x (.lambda site body)

theorem Stmt.exprs_map (f : ι → κ) (g : Option ScopeId → Option ScopeId) (stmt : Stmt ι) :
    (stmt.map f g).exprs = stmt.exprs.map (Expr.map f g) := by
  cases stmt with
  | bind id span name ty value => cases value <;> rfl
  | eval id span expr => rfl
  | ret id span value => cases value <;> rfl

namespace Expr

variable {f : ι → κ} {g : Option ScopeId → Option ScopeId}

theorem scope_map (f : ι → κ) (g : Option ScopeId → Option ScopeId) (e : Expr ι) :
    (e.map f g).scope = g e.scope := by
  cases e <;> rfl

/-- **Every node of a changed tree is a changed node of the tree.** -/
theorem Within.exists_of_map {e : Expr ι} {x : Expr κ} (h : x.Within (e.map f g)) :
    ∃ y : Expr ι, y.Within e ∧ x = y.map f g := by
  generalize hmap : e.map f g = e' at h
  induction h generalizing e with
  | self => exact ⟨e, .self, hmap.symm⟩
  | receiver site args _ ih =>
    cases e with
    | call site₀ receiver₀ args₀ =>
      rw [Expr.map, Expr.call.injEq] at hmap
      obtain ⟨y, hy, rfl⟩ := ih hmap.2.1
      exact ⟨y, .receiver site₀ args₀ hy, rfl⟩
    | literal | lambda | ident => cases hmap
  | arg site receiver ha _ ih =>
    cases e with
    | call site₀ receiver₀ args₀ =>
      rw [Expr.map, Expr.call.injEq, mapAll_eq_map] at hmap
      obtain ⟨-, -, rfl⟩ := hmap
      obtain ⟨a₀, ha₀, hmap⟩ := List.mem_map.1 ha
      obtain ⟨y, hy, rfl⟩ := ih hmap
      exact ⟨y, .arg site₀ receiver₀ ha₀ hy, rfl⟩
    | literal | lambda | ident => cases hmap
  | body site hstmt he _ ih =>
    cases e with
    | lambda site₀ body₀ =>
      rw [Expr.map, Expr.lambda.injEq, Stmt.mapAll_eq_map] at hmap
      obtain ⟨-, rfl⟩ := hmap
      obtain ⟨stmt₀, hstmt₀, rfl⟩ := List.mem_map.1 hstmt
      rw [Stmt.exprs_map] at he
      obtain ⟨e₀, he₀, hmap⟩ := List.mem_map.1 he
      obtain ⟨y, hy, rfl⟩ := ih hmap
      exact ⟨y, .body site₀ hstmt₀ he₀ hy, rfl⟩
    | literal | ident | call => cases hmap

/-! ## Nodes without a scope -/

/-- No node is bound to a scope. -/
def Unbound (e : Expr ι) : Prop := ∀ x : Expr ι, x.Within e → x.scope = none

variable {site : Site ι}

theorem unbound_literal (hsite : site.scope = none) (value : Literal) :
    (literal site value).Unbound := by
  intro x hx
  cases hx
  exact hsite

theorem unbound_ident (hsite : site.scope = none) (name : String) : (ident site name).Unbound := by
  intro x hx
  cases hx
  exact hsite

theorem unbound_lambda (hsite : site.scope = none) {body : List (Stmt ι)}
    (hbody : ∀ stmt ∈ body, ∀ e ∈ stmt.exprs, e.Unbound) : (lambda site body).Unbound := by
  intro x hx
  cases hx with
  | self => exact hsite
  | body _ hstmt he h => exact hbody _ hstmt _ he x h

theorem unbound_call (hsite : site.scope = none) {receiver : Expr ι} {args : List (Expr ι)}
    (hreceiver : receiver.Unbound) (hargs : ∀ a ∈ args, a.Unbound) :
    (call site receiver args).Unbound := by
  intro x hx
  cases hx with
  | self => exact hsite
  | receiver _ _ h => exact hreceiver x h
  | arg _ _ ha h => exact hargs _ ha x h

/-- **Binding reaches every node.**  Where none was bound before, all are bound to the one scope. -/
theorem Unbound.scope_of_within_bind {e : Expr ι} (he : e.Unbound) {s : ScopeId} {x : Expr ι}
    (hx : x.Within (e.bind s)) : x.scope = some s := by
  obtain ⟨y, hy, rfl⟩ := hx.exists_of_map
  rw [scope_map, he y hy]
  rfl

end Expr

end UnitCheck
