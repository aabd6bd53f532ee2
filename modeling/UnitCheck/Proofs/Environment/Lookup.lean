import UnitCheck.Proofs.Environment.Reachable

/-!
# What a lookup finds

`Environment.own?` is what a scope declares itself, and `Environment.Up` the way from a scope to one
around it, parent by parent.  A lookup finds the first declaration on that way
(`Valid.find?_eq_some_iff`), and what a scope hides is found in the same way from its parent.

Everything here follows from one equation, `Valid.find?_eq_or`: what is found from a scope is its
own declaration, or else what is found from its parent.  It holds of scopes that do not exist as
well.  A parent has a smaller number than its child, so facts about all scopes are shown by going
from the parents to the children (`Valid.scope_induction`).
-/

set_option autoImplicit false

namespace UnitCheck

theorem Declaration.isQuery_iff {d : Declaration} : d.isQuery = true ↔ d.kind = .query := by
  rw [isQuery]
  cases d.kind <;> simp

namespace Environment

variable {env : Environment} {name : String}

/-- The declaration of a name in the scope itself. -/
def own? (env : Environment) (s : ScopeId) (name : String) : Option Declaration :=
  (env.scope? s).bind fun scope => scope.get? name

/-- The way from a scope up to the scope `a`, by the parents.  The scopes before `a` are listed,
innermost first. -/
inductive Up (env : Environment) (a : ScopeId) : ScopeId → List ScopeId → Prop
  | here : Up env a a []
  | parent {s p : ScopeId} {below : List ScopeId} (hp : env.parent s = some p)
    (up : Up env a p below) : Up env a s (s :: below)

/-- The scope `a` is on the way up from a scope, and none before it declares the name. -/
def ClearTo (env : Environment) (name : String) (s a : ScopeId) : Prop :=
  ∃ below, env.Up a s below ∧ ∀ b ∈ below, env.own? b name = none

/-! ## Single scopes -/

theorem scope?_eq_none_iff {s : ScopeId} : env.scope? s = none ↔ env.contains s = false := by
  rw [contains, decide_eq_false_iff_not, Nat.not_lt]
  exact Array.getElem?_eq_none_iff

theorem parent_of_not_contains {s : ScopeId} (hs : env.contains s = false) :
    env.parent s = none := by
  rw [parent, scope?_eq_none_iff.2 hs, Option.bind_none]

/-- A scope declares under a name what has this name and is no query. -/
theorem Valid.name_of_own? (h : env.Valid) {s : ScopeId} {d : Declaration}
    (hd : env.own? s name = some d) : d.name = name ∧ d.isQuery = false := by
  obtain ⟨scope, hscope, hget⟩ := Option.bind_eq_some_iff.1 hd
  have hvalid := h.scope hscope
  obtain ⟨hmem, hname⟩ := (Scope.get?_eq_some_iff hvalid.nodup).1 hget
  exact ⟨hname, hvalid.not_query d hmem⟩

/-! ## From parents to children -/

theorem Valid.parent_lt (h : env.Valid) {s p : ScopeId} (hp : env.parent s = some p) :
    p.index.toNat < s.index.toNat := by
  obtain ⟨scope, hscope, hparent⟩ := Option.bind_eq_some_iff.1 hp
  exact (h.scope hscope).parent_lt hparent

theorem Valid.parent_root (h : env.Valid) : env.parent root = none := by
  by_contra hne
  obtain ⟨p, hp⟩ := Option.ne_none_iff_exists'.1 hne
  exact Nat.not_lt_zero _ (h.parent_lt hp)

/-- What holds of a scope if it holds of its parent holds of all scopes. -/
theorem Valid.scope_induction (h : env.Valid) {P : ScopeId → Prop}
    (step : ∀ s, (∀ p, env.parent s = some p → P p) → P s) (s : ScopeId) : P s := by
  induction hk : s.index.toNat using Nat.strongRecOn generalizing s with
  | ind k ih => exact step s fun p hp => ih p.index.toNat (hk ▸ h.parent_lt hp) p rfl

/-- The way to `a` ends at once, or goes on from the parent. -/
theorem clearTo_iff {s a : ScopeId} :
    env.ClearTo name s a ↔
      s = a ∨ env.own? s name = none ∧ ∃ p, env.parent s = some p ∧ env.ClearTo name p a := by
  constructor
  · rintro ⟨below, up, hclear⟩
    rcases up with _ | ⟨hp, up⟩
    · exact .inl rfl
    · rw [List.forall_mem_cons] at hclear
      exact .inr ⟨hclear.1, _, hp, _, up, hclear.2⟩
  · rintro (rfl | ⟨hown, p, hp, below, up, hclear⟩)
    · exact ⟨[], .here, by simp⟩
    · exact ⟨s :: below, .parent hp up, List.forall_mem_cons.2 ⟨hown, hclear⟩⟩

theorem clearTo_self (env : Environment) (name : String) (s : ScopeId) : env.ClearTo name s s :=
  clearTo_iff.2 (.inl rfl)

/-! ## Lookups -/

/-- **A lookup in one equation**: a scope's own declaration, or else the one that it would hide. -/
theorem Valid.find?_eq_or (h : env.Valid) (s : ScopeId) (name : String) :
    env.find? s name = (env.own? s name).or (env.shadowed? s name) := by
  rw [own?, shadowed?, parent]
  cases hs : env.scope? s with
  | none => exact find?_of_scope?_eq_none hs name
  | some scope => exact h.find?_eq hs name

/-- **A lookup finds the innermost declaration**: that of the first scope on the way up that has
one. -/
theorem Valid.find?_eq_some_iff (h : env.Valid) {s : ScopeId} {d : Declaration} :
    env.find? s name = some d ↔ ∃ a, env.ClearTo name s a ∧ env.own? a name = some d := by
  induction s using h.scope_induction with
  | step s ih =>
    rw [h.find?_eq_or, Option.or_eq_some_iff, shadowed?, Option.bind_eq_some_iff]
    constructor
    · rintro (hown | ⟨hnone, p, hp, hfind⟩)
      · exact ⟨s, clearTo_self env name s, hown⟩
      · obtain ⟨a, hclear, hown⟩ := (ih p hp).1 hfind
        exact ⟨a, clearTo_iff.2 (.inr ⟨hnone, p, hp, hclear⟩), hown⟩
    · rintro ⟨a, hclear, hown⟩
      rcases clearTo_iff.1 hclear with rfl | ⟨hnone, p, hp, hclear⟩
      · exact .inl hown
      · exact .inr ⟨hnone, p, hp, (ih p hp).2 ⟨a, hclear, hown⟩⟩

/-- **Lookup is innermost first**, whatever calls have been made.  From a scope, whether it exists
or not, a name is found as a declaration if and only if a scope `a` on the way up declares it so and
no scope before `a` declares the name.  That declaration has the name, and is no query.  From a
scope that does not exist nothing is found.

What a scope hides is found by the same search from its parent; the root hides nothing, and nor does
a scope that does not exist.  So a scope that does not declare a name itself finds what it would
hide. -/
theorem find?_innermost (calls : List Call) (s : ScopeId) (name : String) :
    let env := ofCalls calls
    (∀ d, env.find? s name = some d ↔ ∃ a, env.ClearTo name s a ∧ env.own? a name = some d) ∧
      (∀ d, env.find? s name = some d → d.name = name ∧ d.kind ≠ .query) ∧
      (env.contains s = false → env.find? s name = none) ∧
      (∀ d, env.shadowed? s name = some d ↔
        ∃ p, env.parent s = some p ∧ ∃ a, env.ClearTo name p a ∧ env.own? a name = some d) ∧
      (s = root ∨ env.contains s = false → env.shadowed? s name = none) ∧
      (env.contains s = true → env.own? s name = none →
        env.find? s name = env.shadowed? s name) := by
  intro env
  have h : env.Valid := valid_ofCalls calls
  refine ⟨fun d => h.find?_eq_some_iff, fun d hd => ?_, fun hs => ?_, fun d => ?_, fun hs => ?_,
    fun _ hown => ?_⟩
  · obtain ⟨a, -, hown⟩ := h.find?_eq_some_iff.1 hd
    obtain ⟨hname, hquery⟩ := h.name_of_own? hown
    exact ⟨hname, fun hkind => Bool.eq_false_iff.1 hquery (Declaration.isQuery_iff.2 hkind)⟩
  · exact find?_of_scope?_eq_none (scope?_eq_none_iff.2 hs) name
  · rw [shadowed?, Option.bind_eq_some_iff]
    simp only [h.find?_eq_some_iff]
  · have hparent : env.parent s = none := by
      rcases hs with rfl | hs
      · exact h.parent_root
      · exact parent_of_not_contains hs
    rw [shadowed?, hparent, Option.bind_none]
  · rw [h.find?_eq_or, hown, Option.none_or]

end Environment

end UnitCheck
