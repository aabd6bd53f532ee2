import UnitCheck.Proofs.Environment.Lookup
import UnitCheck.Proofs.Expr.Within
import UnitCheck.Proofs.Resolve.Spine

/-!
# Names in outcomes

Resolving looks into the environment at one place only: the name at the head of the expression, from
the scope of the head.  So environments that find the same from there give the same outcome
(`Expr.typeIn_congr`), and the head alone is to blame for a name that is not resolved
(`Expr.typeIn_head_of_unresolvedName`).

A valid environment holds no queries, and what it finds is therefore a variable or the name of a
type.  With a head that is bound there are two ways left in which a name can fail
(`Expr.cause_of_unresolvedName`).
-/

set_option autoImplicit false

namespace UnitCheck

theorem Environment.Valid.isQuery_of_find? {env : Environment} (h : env.Valid) {s : ScopeId}
    {name : String} {d : Declaration} (hd : env.find? s name = some d) : d.isQuery = false := by
  obtain ⟨a, -, hown⟩ := h.find?_eq_some_iff.1 hd
  exact (h.name_of_own? hown).2

theorem Declaration.describe_of_not_var {d : Declaration} (hquery : d.isQuery = false)
    (hvar : ∀ ty, d.kind ≠ .var ty) : d.kind.describe = "type name" := by
  cases hkind : d.kind with
  | query =>
    rw [isQuery, hkind] at hquery
    cases hquery
  | var ty => exact absurd hkind (hvar ty)
  | typeName ty => rfl

namespace Expr

variable {ι : Type} {env env' : Environment}

theorem head_within (e : Expr ι) : e.head.Within e := by
  cases e with
  | literal site value => exact .self
  | lambda site body => exact .self
  | ident site name => exact .self
  | call site receiver args => exact .receiver site args (head_within receiver)

theorem Unbound.scope_head_bind {e : Expr ι} (he : e.Unbound) (s : ScopeId) :
    (e.bind s).head.scope = some s := he.scope_of_within_bind (head_within (e.bind s))

/-- **The outcome depends on what is found from the head's scope** and on nothing else of the
environment. -/
theorem typeIn_congr (e : Expr ι)
    (h : ∀ s, e.head.scope = some s → ∀ name, env'.find? s name = env.find? s name) :
    e.typeIn env' = e.typeIn env := by
  cases e with
  | literal site value => rfl
  | lambda site body => rfl
  | ident site name =>
    rw [typeIn_ident, typeIn_ident, Environment.varType, Environment.varType]
    cases hscope : site.scope with
    | none => rfl
    | some s => simp only [h s hscope name]
  | call site receiver args => rw [typeIn_call, typeIn_call, typeIn_congr receiver h]

/-! ## Names that are not resolved -/

variable {name : String} {span : Span} {cause : NameFailure}

theorem typeIn_head_of_unresolvedName {e : Expr ι}
    (h : e.typeIn env = .error (.unresolvedName name span cause)) :
    e.head.typeIn env = .error (.unresolvedName name span cause) := by
  cases e with
  | literal site value => exact h
  | lambda site body => exact h
  | ident site name => exact h
  | call site receiver args =>
    refine typeIn_head_of_unresolvedName (e := receiver) ?_
    rw [typeIn_call] at h
    cases hreceiver : receiver.typeIn env with
    | error err =>
      rw [hreceiver] at h
      exact h
    | ok ty =>
      -- a call fails by itself only for a type that cannot be called
      rw [hreceiver] at h
      have hcalled : ty.called site.span = .error (.unresolvedName name span cause) := h
      rw [Ty.called] at hcalled
      split at hcalled <;> cases hcalled

theorem cause_of_unresolvedName (henv : env.Valid) {e : Expr ι} {s : ScopeId}
    (hscope : e.head.scope = some s)
    (h : e.typeIn env = .error (.unresolvedName name span cause)) :
    cause = .undeclared ∨ cause = .declaredAs "type name" := by
  have hhead := headType_head env e
  rw [typeIn_head_of_unresolvedName h] at hhead
  generalize e.head = x at hhead hscope
  cases hhead with
  | unbound _ hnone => cases hnone.symm.trans hscope
  | undeclared => exact .inl rfl
  | declaredAs _ hname hkind =>
    rw [Declaration.describe_of_not_var (henv.isQuery_of_find? hname) hkind]
    exact .inr rfl

end Expr

end UnitCheck
