import Mathlib.Data.List.Nodup
import UnitCheck.Proofs.Environment

/-!
# Environments that can be reached

An environment starts as an empty root and changes by two calls only, `child` and `declare`, with
whatever arguments.  `Environment.ofCalls` is what a list of such calls leads to; a call that fails
changes nothing.

`Environment.Valid` is what all of them have in common, and `valid_after` says that a call keeps it.
What matters most is that a parent has a smaller number than its child.  A search that goes from
parent to parent until it finds something (`Environment.Search`) is not bounded by anything else,
and would go on forever in a circle of parents (`not_search_of_parent_self`).
-/

set_option autoImplicit false

namespace UnitCheck

/-! ## What a scope must be -/

namespace Scope

variable {scope : Scope} {k : Nat}

/-- What holds of the scope with number `k`. -/
structure ValidAt (k : Nat) (scope : Scope) : Prop where
  /-- The root stands alone. -/
  root : k = 0 → scope.parent = none
  /-- Every other scope is inside an older one. -/
  nested : k ≠ 0 → ∃ p, scope.parent = some p ∧ p.index.toNat < k
  nodup : (scope.declarations.map Declaration.name).Nodup
  not_query : ∀ d ∈ scope.declarations, d.isQuery = false

theorem ValidAt.parent_lt (h : scope.ValidAt k) {p : ScopeId} (hp : scope.parent = some p) :
    p.index.toNat < k := by
  by_cases hk : k = 0
  · rw [h.root hk] at hp
    cases hp
  · obtain ⟨q, hq, hlt⟩ := h.nested hk
    rw [hq] at hp
    cases hp
    exact hlt

/-- A scope that is opened inside an older one. -/
theorem validAt_open {p : ScopeId} (hp : p.index.toNat < k) :
    ValidAt k { parent := some p } where
  root hk := by omega
  nested _ := ⟨p, rfl, hp⟩
  nodup := List.nodup_nil
  not_query := by simp

theorem get?_eq_none_iff {name : String} :
    scope.get? name = none ↔ name ∉ scope.declarations.map Declaration.name := by
  rw [get?, List.find?_eq_none, List.mem_map]
  constructor
  · rintro h ⟨d, hd, rfl⟩
    exact h d hd (beq_self_eq_true d.name)
  · intro h d hd hname
    exact h ⟨d, hd, eq_of_beq hname⟩

/-- A new name does no harm. -/
theorem ValidAt.declare (h : scope.ValidAt k) {d : Declaration} (hquery : d.isQuery = false)
    (hnew : scope.get? d.name = none) :
    ValidAt k { scope with declarations := d :: scope.declarations } where
  root := h.root
  nested := h.nested
  nodup := by
    rw [List.map_cons, List.nodup_cons]
    exact ⟨get?_eq_none_iff.1 hnew, h.nodup⟩
  not_query := List.forall_mem_cons.2 ⟨hquery, h.not_query⟩

/-- **A declaration is stored under its own name**, and is the only one there. -/
theorem get?_eq_some_iff (hnodup : (scope.declarations.map Declaration.name).Nodup) {name : String}
    {d : Declaration} : scope.get? name = some d ↔ d ∈ scope.declarations ∧ d.name = name := by
  rw [get?]
  constructor
  · intro h
    exact ⟨List.mem_of_find?_eq_some h, by simpa using List.find?_some h⟩
  · rintro ⟨hd, rfl⟩
    obtain ⟨e, he⟩ : ∃ e, (scope.declarations.find? fun e => e.name == d.name) = some e :=
      Option.isSome_iff_exists.1 (List.find?_isSome.2 ⟨d, hd, by simp⟩)
    have hname : e.name = d.name := by simpa using List.find?_some he
    rw [he, List.inj_on_of_nodup_map hnodup (List.mem_of_find?_eq_some he) hd hname]

end Scope

namespace Environment

variable {env : Environment}

/-! ## Calls -/

/-- A call that may change an environment. -/
inductive Call where
  | child (parent : ScopeId)
  | declare (s : ScopeId) (d : Declaration)

/-- The environment after a call.  A call that fails changes nothing. -/
def after (env : Environment) : Call → Environment
  | .child parent =>
    match env.child parent with
    | .ok (_, grown) => grown
    | .error _ => env
  | .declare s d =>
    match env.declare s d with
    | .ok grown => grown
    | .error _ => env

/-- The environment that calls lead to. -/
def ofCalls (calls : List Call) : Environment := calls.foldl after new

theorem child_eq_ok_iff {parent s : ScopeId} {grown : Environment} :
    env.child parent = .ok (s, grown) ↔
      parent.index.toNat < env.count ∧ s = ⟨env.count.toUInt32⟩ ∧
        grown = ⟨env.scopes.push { parent := some parent }⟩ := by
  rw [child, contains]
  by_cases h : parent.index.toNat < env.count
  · simp [h, eq_comm]
  · simp [h]

theorem declare_eq_ok_iff {s : ScopeId} {d : Declaration} {grown : Environment} :
    env.declare s d = .ok grown ↔
      d.isQuery = false ∧ ∃ scope, env.scope? s = some scope ∧ scope.get? d.name = none ∧
        grown = ⟨env.scopes.setIfInBounds s.index.toNat
          { scope with declarations := d :: scope.declarations }⟩ := by
  rw [declare]
  cases hquery : d.isQuery with
  | true => simp
  | false =>
    cases hscope : env.scope? s with
    | none => simp
    | some scope =>
      cases hd : scope.get? d.name with
      | some previous => simp [hd]
      | none => simp [hd, eq_comm]

theorem after_child {parent s : ScopeId} {grown : Environment}
    (h : env.child parent = .ok (s, grown)) : env.after (.child parent) = grown := by
  rw [after, h]

theorem after_declare {s : ScopeId} {d : Declaration} {grown : Environment}
    (h : env.declare s d = .ok grown) : env.after (.declare s d) = grown := by
  rw [after, h]

theorem count_child {parent s : ScopeId} {grown : Environment}
    (h : env.child parent = .ok (s, grown)) : grown.count = env.count + 1 := by
  obtain ⟨-, -, rfl⟩ := child_eq_ok_iff.1 h
  exact Array.size_push _

theorem count_declare {s : ScopeId} {d : Declaration} {grown : Environment}
    (h : env.declare s d = .ok grown) : grown.count = env.count := by
  obtain ⟨-, scope, -, -, rfl⟩ := declare_eq_ok_iff.1 h
  exact Array.size_setIfInBounds

/-! ## The invariant -/

/-- What holds of every environment that can be reached. -/
structure Valid (env : Environment) : Prop where
  count_pos : 0 < env.count
  scope : ∀ {k : Nat} {scope : Scope}, env.scopes[k]? = some scope → scope.ValidAt k

theorem valid_new : new.Valid where
  count_pos := by decide
  scope {k scope} h := by
    cases k with
    | zero =>
      obtain rfl : ({} : Scope) = scope := Option.some.inj h
      exact ⟨fun _ => rfl, fun hk => absurd rfl hk, List.nodup_nil, by simp⟩
    | succ k => simp [new] at h

theorem Valid.child (h : env.Valid) {parent s : ScopeId} {grown : Environment}
    (hgrown : env.child parent = .ok (s, grown)) : grown.Valid := by
  obtain ⟨hparent, -, rfl⟩ := child_eq_ok_iff.1 hgrown
  refine ⟨by simp [count], fun {k scope} hk => ?_⟩
  rw [Array.getElem?_push] at hk
  split at hk
  · rename_i hlast
    cases hk
    subst hlast
    exact Scope.validAt_open hparent
  · exact h.scope hk

theorem Valid.declare (h : env.Valid) {s : ScopeId} {d : Declaration} {grown : Environment}
    (hgrown : env.declare s d = .ok grown) : grown.Valid := by
  obtain ⟨hquery, scope, hscope, hnew, rfl⟩ := declare_eq_ok_iff.1 hgrown
  refine ⟨by simpa [count] using h.count_pos, fun {k scope'} hk => ?_⟩
  rw [Array.getElem?_setIfInBounds] at hk
  split at hk
  · rename_i hs
    subst hs
    split at hk
    · cases hk
      exact (h.scope hscope).declare hquery hnew
    · cases hk
  · exact h.scope hk

/-- **A call keeps an environment valid**, whether it succeeds or fails. -/
theorem valid_after (h : env.Valid) (call : Call) : (env.after call).Valid := by
  cases call with
  | child parent =>
    rw [after]
    split
    · rename_i hgrown
      exact h.child hgrown
    · exact h
  | declare s d =>
    rw [after]
    split
    · rename_i hgrown
      exact h.declare hgrown
    · exact h

theorem valid_foldl_after (h : env.Valid) (calls : List Call) : (calls.foldl after env).Valid := by
  induction calls generalizing env with
  | nil => exact h
  | cons call calls ih => exact ih (valid_after h call)

theorem valid_ofCalls (calls : List Call) : (ofCalls calls).Valid :=
  valid_foldl_after valid_new calls

/-! ## The way up -/

/-- The number of the scope around the one with number `k`: `parent`, also for scopes with a number
that no `ScopeId` has. -/
def parentAt (env : Environment) (k : Nat) : Option Nat :=
  (env.scopes[k]?.bind Scope.parent).map fun p => p.index.toNat

/-- The number of the scope that is `n` parents away from the one with number `k`. -/
def climb (env : Environment) : Nat → Nat → Option Nat
  | 0, k => some k
  | n + 1, k => (env.parentAt k).bind (env.climb n)

theorem Valid.exists_climb (h : env.Valid) {k : Nat} (hk : k < env.count) :
    ∃ n ≤ k, env.climb n k = some 0 := by
  -- each step goes to a smaller number, so there are at most `k` of them
  induction k using Nat.strongRecOn with
  | ind k ih =>
    by_cases hroot : k = 0
    · exact ⟨0, Nat.zero_le k, congrArg some hroot⟩
    · have hscope : env.scopes[k]? = some env.scopes[k] := Array.getElem?_eq_getElem hk
      obtain ⟨p, hp, hlt⟩ := (h.scope hscope).nested hroot
      obtain ⟨n, hn, hclimb⟩ := ih p.index.toNat hlt (Nat.lt_trans hlt hk)
      refine ⟨n + 1, by omega, ?_⟩
      rw [climb, parentAt, hscope, Option.bind_some, hp, Option.map_some, Option.bind_some]
      exact hclimb

/-! ## Searching -/

theorem find?_of_scope?_eq_none {s : ScopeId} (hs : env.scope? s = none) (name : String) :
    env.find? s name = none := by
  have hnone : env.scopes[s.index.toNat]? = none := hs
  rw [find?, lineage, lineageFrom, hnone]
  rfl

/-- **A lookup, one scope at a time**: what the scope itself declares, or else what is found from
its parent. -/
theorem Valid.find?_eq (h : env.Valid) {s : ScopeId} {scope : Scope}
    (hs : env.scope? s = some scope) (name : String) :
    env.find? s name =
      (scope.get? name).or (scope.parent.bind fun p => env.find? p name) := by
  have hscope : env.scopes[s.index.toNat]? = some scope := hs
  rw [find?, lineage, lineageFrom, hscope]
  cases hp : scope.parent with
  | none => cases hd : scope.get? name <;> simp [hp, hd]
  | some p =>
    have hlt : p.index.toNat < s.index.toNat := (h.scope hscope).parent_lt hp
    cases hd : scope.get? name <;> simp [hp, hd, hlt, find?, lineage]

/-- The search for a name as a loop: it goes from scope to parent until the name is declared, and
nothing bounds the number of rounds.  So there is a result only if the loop ends. -/
inductive Search (env : Environment) (name : String) :
    Option ScopeId → Option Declaration → Prop
  | outside : Search env name none none
  | unknown {s : ScopeId} (hs : env.scope? s = none) : Search env name (some s) none
  | found {s : ScopeId} {scope : Scope} {d : Declaration} (hs : env.scope? s = some scope)
    (hd : scope.get? name = some d) : Search env name (some s) (some d)
  | up {s : ScopeId} {scope : Scope} {result : Option Declaration}
    (hs : env.scope? s = some scope) (hd : scope.get? name = none)
    (rest : Search env name scope.parent result) : Search env name (some s) result

namespace Search

variable {name : String} {current : Option ScopeId} {r r' : Option Declaration}

theorem unique (h : env.Search name current r) (h' : env.Search name current r') : r = r' := by
  -- which round comes next is told by the scope, so the two loops do the same
  induction h with
  | outside =>
    cases h'
    rfl
  | unknown hs =>
    cases h' with
    | unknown => rfl
    | found hs' => cases hs.symm.trans hs'
    | up hs' => cases hs.symm.trans hs'
  | found hs hd =>
    cases h' with
    | unknown hs' => cases hs.symm.trans hs'
    | found hs' hd' =>
      cases hs.symm.trans hs'
      exact hd.symm.trans hd'
    | up hs' hd' =>
      cases hs.symm.trans hs'
      cases hd.symm.trans hd'
  | up hs hd _ ih =>
    cases h' with
    | unknown hs' => cases hs.symm.trans hs'
    | found hs' hd' =>
      cases hs.symm.trans hs'
      cases hd.symm.trans hd'
    | up hs' _ rest' =>
      cases hs.symm.trans hs'
      exact ih rest'

end Search

/-- In a scope that is its own parent the search for a name that it does not declare goes on
forever. -/
theorem not_search_of_parent_self {s : ScopeId} {scope : Scope} {name : String}
    (hs : env.scope? s = some scope) (hp : scope.parent = some s) (hd : scope.get? name = none)
    (r : Option Declaration) : ¬env.Search name (some s) r := by
  intro h
  generalize hcurrent : some s = current at h
  induction h with
  | outside => cases hcurrent
  | unknown hs' =>
    cases hcurrent
    cases hs.symm.trans hs'
  | found hs' hd' =>
    cases hcurrent
    cases hs.symm.trans hs'
    cases hd.symm.trans hd'
  | up hs' _ _ ih =>
    cases hcurrent
    cases hs.symm.trans hs'
    exact ih hp.symm

/-- **The search ends in a valid environment**, with what the lookup gives. -/
theorem Valid.search_find? (h : env.Valid) (s : ScopeId) (name : String) :
    env.Search name (some s) (env.find? s name) := by
  induction hk : s.index.toNat using Nat.strongRecOn generalizing s with
  | ind k ih =>
    cases hs : env.scope? s with
    | none =>
      rw [find?_of_scope?_eq_none hs]
      exact .unknown hs
    | some scope =>
      rw [h.find?_eq hs]
      cases hd : scope.get? name with
      | some d => exact .found hs hd
      | none =>
        refine .up hs hd ?_
        cases hp : scope.parent with
        | none => exact .outside
        | some p =>
          have hlt : p.index.toNat < k := hk ▸ (h.scope hs).parent_lt hp
          exact ih p.index.toNat hlt p rfl

/-! ## All that can be reached -/

/-- **Whatever calls are made, in any order and with any arguments**, scope `0` is there and has no
parent; every other scope has an older one for its parent; the declarations of a scope have
different names, each is the one that its name stands for there, and none of them is a query.
Hence the root is at most `k` parents away from the scope with number `k`, and the search for a
name ends, from wherever it starts. -/
theorem ofCalls_invariant (calls : List Call) :
    let env := ofCalls calls
    0 < env.count ∧ env.parent root = none ∧
      (∀ (k : Nat) (scope : Scope), 0 < k → env.scopes[k]? = some scope →
        ∃ p, scope.parent = some p ∧ p.index.toNat < k) ∧
      (∀ (k : Nat) (scope : Scope), env.scopes[k]? = some scope →
        (scope.declarations.map Declaration.name).Nodup ∧
          (∀ name d, scope.get? name = some d ↔ d ∈ scope.declarations ∧ d.name = name) ∧
          ∀ d ∈ scope.declarations, d.kind ≠ .query) ∧
      (∀ k, k < env.count → ∃ n ≤ k, env.climb n k = some 0) ∧
      ∀ s name, env.Search name (some s) (env.find? s name) ∧
        ∀ r, env.Search name (some s) r → r = env.find? s name := by
  intro env
  have h : env.Valid := valid_ofCalls calls
  have hpos : 0 < env.scopes.size := h.count_pos
  have hroot : env.scopes[0]? = some env.scopes[0] := Array.getElem?_eq_getElem hpos
  refine ⟨h.count_pos, ?_, fun k scope hk hscope => ?_, fun k scope hscope => ?_,
    fun k hk => h.exists_climb hk, fun s name => ⟨h.search_find? s name, fun r hr => ?_⟩⟩
  · exact (congrArg (Option.bind · Scope.parent) hroot).trans ((h.scope hroot).root rfl)
  · exact (h.scope hscope).nested (Nat.ne_of_gt hk)
  · have hnodup := (h.scope hscope).nodup
    refine ⟨hnodup, fun name d => Scope.get?_eq_some_iff hnodup, fun d hd hkind => ?_⟩
    have hquery := (h.scope hscope).not_query d hd
    rw [Declaration.isQuery, hkind] at hquery
    cases hquery
  · exact hr.unique (h.search_find? s name)

end Environment

end UnitCheck
