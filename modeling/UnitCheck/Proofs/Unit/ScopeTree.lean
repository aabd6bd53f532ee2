import UnitCheck.Proofs.Expr.Map
import UnitCheck.Proofs.Unit.Walk

/-!
# The scope tree of a built unit

A document gives each scope a list of declarations (`CompilationUnit.listed`) and each nested scope
a parent, and so for each scope the way to the root (`CompilationUnit.Chain`).  Neither refers to an
environment.

What is looked up in the built unit is what is listed on that way (`find?_eq_nearest`,
`shadowed?_eq_nearest`).  Two facts about a document without violations carry this: the names in a
list are distinct, so that it does not matter from which end it is searched, and a parent has a
smaller number than its child, so that the way up exists and a lookup follows it to its end.  They
are part of what a document needs to be built (`CompilationUnit.Buildable`), which is said of its
scopes and entries and not of the order in which they are gone through (`exists_build_iff`).
-/

set_option autoImplicit false

namespace UnitCheck

open Environment (ofList)

/-! ## Documents without violations -/

namespace BuildStep

theorem violation?_declare_eq_none_iff {earlier : List Declaration} {d : Declaration} :
    violation? (.declare earlier d) = none ↔
      d.isQuery = false ∧ d.name ∉ earlier.map Declaration.name := by
  rw [violation?]
  cases d.isQuery with
  | true => simp
  | false => simp

/-- A list of declarations goes into a scope if none of them is a query and no name is repeated. -/
theorem forall_declareAll_iff (earlier : List Declaration)
    (hnodup : (earlier.map Declaration.name).Nodup) (ds : List Declaration) :
    (∀ step ∈ declareAll earlier ds, step.violation? = none) ↔
      (∀ d ∈ ds, d.isQuery = false) ∧ ((earlier ++ ds).map Declaration.name).Nodup := by
  induction ds generalizing earlier with
  | nil => simp [declareAll, hnodup]
  | cons d ds ih =>
    rw [declareAll, List.forall_mem_cons, List.forall_mem_cons, List.append_cons earlier d ds]
    constructor
    · rintro ⟨hd, hds⟩
      obtain ⟨hquery, hall⟩ := (ih _ (nodup_of_violation?_eq_none hnodup hd)).1 hds
      exact ⟨⟨(violation?_declare_eq_none_iff.1 hd).1, hquery⟩, hall⟩
    · rintro ⟨⟨hd, hquery⟩, hall⟩
      have hfirst : ((earlier ++ [d]).map Declaration.name).Nodup := by
        rw [List.map_append, List.nodup_append] at hall
        exact hall.1
      refine ⟨violation?_declare_eq_none_iff.2 ⟨hd, fun hmem => ?_⟩,
        (ih _ hfirst).2 ⟨hquery, hall⟩⟩
      rw [List.map_append, List.nodup_append] at hfirst
      exact hfirst.2.2 _ hmem _ (List.mem_singleton_self _) rfl

theorem forall_enterAll_iff (i : Nat) (specs : List ScopeSpec) :
    (∀ step ∈ enterAll i specs, step.violation? = none) ↔
      ∀ k spec, specs[k]? = some spec → spec.parent.index.toNat ≤ i + k ∧
        (∀ d ∈ spec.declarations, d.isQuery = false) ∧
        (spec.declarations.map Declaration.name).Nodup := by
  induction specs generalizing i with
  | nil => simp [enterAll]
  | cons first specs ih =>
    have henter : violation? (.enter i first.parent) = none ↔ first.parent.index.toNat ≤ i := by
      simp [violation?]
    rw [enterAll, List.forall_mem_cons, List.forall_mem_append, ih (i + 1), henter,
      forall_declareAll_iff [] List.nodup_nil, List.nil_append]
    constructor
    · rintro ⟨hparent, hds, hrest⟩ k spec hk
      cases k with
      | zero =>
        cases hk
        exact ⟨hparent, hds⟩
      | succ k =>
        have hspec := hrest k spec hk
        rwa [Nat.add_right_comm, Nat.add_assoc] at hspec
    · intro h
      obtain ⟨hparent, hds⟩ := h 0 first rfl
      refine ⟨hparent, hds, fun k spec hk => ?_⟩
      have hspec := h (k + 1) spec hk
      rwa [← Nat.add_assoc, Nat.add_right_comm] at hspec

end BuildStep

namespace CompilationUnit

variable {ι : Type} {u : CompilationUnit ι} {b : BuiltUnit ι}

/-- The declarations that the document lists for a scope. -/
def listed (u : CompilationUnit ι) : Nat → List Declaration
  | 0 => u.declarations
  | i + 1 => (u.scopes[i]?.map ScopeSpec.declarations).getD []

/-- The way from a scope to the root, by the parents that the document gives. -/
inductive Chain (u : CompilationUnit ι) : Nat → List Nat → Prop
  | root : Chain u 0 [0]
  | nested {i : Nat} {spec : ScopeSpec} {ks : List Nat} (hspec : u.scopes[i]? = some spec)
    (up : Chain u spec.parent.index.toNat ks) : Chain u (i + 1) ((i + 1) :: ks)

/-- The declaration of a name in the first of some scopes that lists one. -/
def nearest (u : CompilationUnit ι) (ks : List Nat) (name : String) : Option Declaration :=
  ks.findSome? fun k => (u.listed k).find? fun d => d.name == name

/-- What a document without violations has. -/
structure WellScoped (u : CompilationUnit ι) : Prop where
  nodup : ∀ k, ((u.listed k).map Declaration.name).Nodup
  parent_le : ∀ {i : Nat} {spec : ScopeSpec}, u.scopes[i]? = some spec →
    spec.parent.index.toNat ≤ i

/-- What a document must have for its unit to be built. -/
structure Buildable (u : CompilationUnit ι) : Prop extends WellScoped u where
  not_query : ∀ k, ∀ d ∈ u.listed k, d.isQuery = false
  scope_le : ∀ e ∈ u.entries, e.scope.index.toNat ≤ u.scopes.length

theorem listed_nested {i : Nat} {spec : ScopeSpec} (hi : u.scopes[i]? = some spec) :
    u.listed (i + 1) = spec.declarations := by
  rw [listed, hi]
  rfl

/-- What holds of all lists holds of the root's list and of those of the nested scopes. -/
theorem forall_listed_iff {P : List Declaration → Prop} (hnil : P []) :
    (∀ k, P (u.listed k)) ↔
      P u.declarations ∧
        ∀ (i : Nat) (spec : ScopeSpec), u.scopes[i]? = some spec → P spec.declarations := by
  constructor
  · intro h
    refine ⟨h 0, fun i spec hi => ?_⟩
    rw [← listed_nested hi]
    exact h (i + 1)
  · rintro ⟨hroot, hnested⟩ k
    cases k with
    | zero => exact hroot
    | succ i =>
      cases hi : u.scopes[i]? with
      | none =>
        rw [listed, hi]
        exact hnil
      | some spec =>
        rw [listed_nested hi]
        exact hnested i spec hi

/-- **No step of the walk is refused** if and only if names are distinct in each list, no
declaration is a query, parents come before their children, and entries are in scopes. -/
theorem forall_walk_iff :
    (∀ step ∈ u.walk, step.violation? = none) ↔ u.Buildable := by
  have hplace : (∀ step ∈ u.entries.map fun e => BuildStep.place u.scopes.length e.scope,
      step.violation? = none) ↔ ∀ e ∈ u.entries, e.scope.index.toNat ≤ u.scopes.length := by
    simp [BuildStep.violation?]
  have hnodups := forall_listed_iff (u := u) (P := fun ds => (ds.map Declaration.name).Nodup)
    List.nodup_nil
  have hqueries := forall_listed_iff (u := u) (P := fun ds => ∀ d ∈ ds, d.isQuery = false)
    (by simp)
  rw [walk, List.forall_mem_append, List.forall_mem_append, hplace,
    BuildStep.forall_declareAll_iff [] List.nodup_nil, BuildStep.forall_enterAll_iff,
    List.nil_append]
  constructor
  · rintro ⟨⟨hquery, hnodup⟩, hnested, hentries⟩
    refine ⟨⟨?_, fun {i spec} hi => ?_⟩, ?_, hentries⟩
    · exact hnodups.2 ⟨hnodup, fun i spec hi => (hnested i spec hi).2.2⟩
    · have hle := (hnested i spec hi).1
      rwa [Nat.zero_add] at hle
    · exact hqueries.2 ⟨hquery, fun i spec hi => (hnested i spec hi).2.1⟩
  · intro hu
    obtain ⟨hnodup, hnested⟩ := hnodups.1 hu.nodup
    obtain ⟨hquery, hnested'⟩ := hqueries.1 hu.not_query
    refine ⟨⟨hquery, hnodup⟩, fun i spec hi => ⟨?_, hnested' i spec hi, hnested i spec hi⟩,
      hu.scope_le⟩
    rw [Nat.zero_add]
    exact hu.parent_le hi

theorem exists_build_iff (hn : u.scopes.length < 2 ^ 32) :
    (∃ b, u.build = .ok b) ↔ u.Buildable := by
  rw [build_eq hn, ← forall_walk_iff]
  constructor
  · rintro ⟨b, hb⟩
    exact (BuildStep.outcome_eq_ok_iff.1 hb).1
  · intro h
    exact ⟨u.described, BuildStep.outcome_eq_ok_iff.2 ⟨h, rfl⟩⟩

/-- A unit that is built is the one its document describes, and the document has no violation. -/
theorem eq_described_of_build (hn : u.scopes.length < 2 ^ 32) (h : u.build = .ok b) :
    b = u.described ∧ u.WellScoped := by
  rw [build_eq hn, BuildStep.outcome_eq_ok_iff] at h
  exact ⟨h.2.symm, (forall_walk_iff.1 h.1).toWellScoped⟩

/-! ## Parents -/

@[simp] theorem getElem?_scopeList_succ (u : CompilationUnit ι) (i : Nat) :
    u.scopeList[i + 1]? = u.scopes[i]?.map ScopeSpec.toScope := by
  rw [scopeList, List.getElem?_cons_succ, List.getElem?_map]

theorem parent_root (u : CompilationUnit ι) : (ofList u.scopeList).parent ⟨0⟩ = none := by
  rw [Environment.parent, Environment.scope?_ofList]
  rfl

theorem parent_nested {i : Nat} {spec : ScopeSpec} (hi : u.scopes[i]? = some spec) {s : ScopeId}
    (hs : s.index.toNat = i + 1) : (ofList u.scopeList).parent s = some spec.parent := by
  rw [Environment.parent, Environment.scope?_ofList, hs, getElem?_scopeList_succ, hi]
  rfl

/-- The number of a nested scope is not cut off. -/
theorem toNat_index_nested (hn : u.scopes.length < 2 ^ 32) {i : Nat} {spec : ScopeSpec}
    (hi : u.scopes[i]? = some spec) : (ScopeId.mk (i + 1).toUInt32).index.toNat = i + 1 := by
  obtain ⟨hlt, -⟩ := List.getElem?_eq_some_iff.1 hi
  exact Environment.toNat_toUInt32 (by omega)

/-! ## Chains -/

theorem WellScoped.exists_chain (hu : u.WellScoped) {k : Nat} (hk : k ≤ u.scopes.length) :
    ∃ outer, u.Chain k (k :: outer) := by
  -- parents have smaller numbers, so the chain of the parent is there already
  induction k using Nat.strongRecOn with
  | ind k ih =>
    cases k with
    | zero => exact ⟨[], .root⟩
    | succ i =>
      have hi : u.scopes[i]? = some u.scopes[i] := List.getElem?_eq_getElem hk
      have hle := hu.parent_le hi
      obtain ⟨outer, up⟩ := ih u.scopes[i].parent.index.toNat (by omega) (by omega)
      exact ⟨_, .nested hi up⟩

/-- **A lookup follows the chain**, and finds in each scope of it what the document lists. -/
theorem WellScoped.findSome?_lineageFrom (hu : u.WellScoped) {k : Nat} {ks : List Nat}
    (h : u.Chain k ks) (name : String) :
    ((ofList u.scopeList).lineageFrom k).findSome? (fun scope => scope.get? name) =
      u.nearest ks name := by
  induction h with
  | root =>
    have hscope : u.scopeList[0]? = some ⟨none, (u.listed 0).reverse⟩ := rfl
    rw [Environment.lineageFrom_root hscope rfl, nearest, List.findSome?_cons,
      List.findSome?_cons, BuildStep.get?_reverse (hu.nodup 0)]
    rfl
  | @nested i spec ks hspec up ih =>
    have hscope : u.scopeList[i + 1]? = some spec.toScope := by
      rw [getElem?_scopeList_succ, hspec, Option.map_some]
    have hlisted := listed_nested hspec
    have hnodup := hu.nodup (i + 1)
    rw [hlisted] at hnodup
    have hlt := Nat.lt_succ_of_le (hu.parent_le hspec)
    rw [Environment.lineageFrom_nested hscope rfl hlt, nearest, List.findSome?_cons,
      List.findSome?_cons, hlisted, ScopeSpec.toScope, BuildStep.get?_reverse hnodup, ih]
    rfl

theorem WellScoped.find?_eq_nearest (hu : u.WellScoped) {s : ScopeId} {ks : List Nat}
    (h : u.Chain s.index.toNat ks) (name : String) :
    (ofList u.scopeList).find? s name = u.nearest ks name := by
  rw [Environment.find?, Environment.lineage]
  exact hu.findSome?_lineageFrom h name

theorem find?_eq_none_of_length_lt {s : ScopeId} (hs : u.scopes.length < s.index.toNat)
    (name : String) : (ofList u.scopeList).find? s name = none := by
  have hnone : u.scopeList[s.index.toNat]? = none := by
    rw [List.getElem?_eq_none_iff, scopeList, List.length_cons, List.length_map]
    omega
  rw [Environment.find?, Environment.lineage, Environment.lineageFrom_of_none hnone]
  rfl

/-- What a scope hides is looked up on the chain without the scope itself. -/
theorem WellScoped.shadowed?_eq_nearest (hu : u.WellScoped) {s : ScopeId} {outer : List Nat}
    (h : u.Chain s.index.toNat (s.index.toNat :: outer)) (name : String) :
    (ofList u.scopeList).shadowed? s name = u.nearest outer name := by
  rw [Environment.shadowed?]
  generalize hk : s.index.toNat = k at h
  cases h with
  | root =>
    obtain rfl : s = ⟨0⟩ := ScopeId.toNat_index_inj.1 hk
    rw [parent_root]
    rfl
  | nested hspec up =>
    rw [parent_nested hspec hk, Option.bind_some]
    exact hu.find?_eq_nearest up name

/-! ## The built unit -/

theorem forall₂_binds (entries : List (Entry ι)) :
    List.Forall₂ (fun e bound => e.expr.Binds e.scope bound) entries
      (entries.map fun e => e.expr.bind e.scope) := by
  rw [List.forall₂_map_right_iff, List.forall₂_same]
  exact fun e _ => e.expr.binds_bind e.scope

/-- **A built unit is the scope tree that its document describes.**  It has a root and the nested
scopes with the parents they are given; a name means in a scope what the nearest scope on the way
to the root lists for it, and nothing in a scope that does not exist; and the expressions are those
of the entries, each with its nodes bound to the scope of the entry where they had none. -/
theorem build_scope_tree (u : CompilationUnit ι) (b : BuiltUnit ι)
    (hn : u.scopes.length < 2 ^ 32) (h : u.build = .ok b) :
    b.env.count = u.scopes.length + 1 ∧
      b.env.parent ⟨0⟩ = none ∧
      (∀ i spec, u.scopes[i]? = some spec →
        b.env.parent ⟨(i + 1).toUInt32⟩ = some spec.parent) ∧
      (∀ s : ScopeId, s.index.toNat ≤ u.scopes.length →
        ∃ ks, u.Chain s.index.toNat ks ∧ ∀ name, b.env.find? s name = u.nearest ks name) ∧
      (∀ s : ScopeId, u.scopes.length < s.index.toNat → ∀ name, b.env.find? s name = none) ∧
      List.Forall₂ (fun e bound => e.expr.Binds e.scope bound) u.entries b.exprs := by
  obtain ⟨rfl, hu⟩ := eq_described_of_build hn h
  refine ⟨by simp [described, scopeList], parent_root u, fun i spec hi => ?_, fun s hs => ?_,
    fun s hs name => find?_eq_none_of_length_lt hs name, forall₂_binds u.entries⟩
  · exact parent_nested hi (toNat_index_nested hn hi)
  · obtain ⟨outer, hchain⟩ := hu.exists_chain hs
    exact ⟨_, hchain, hu.find?_eq_nearest hchain⟩

/-- Seen from the inner of two nested scopes, which lists nothing, `x` is that of the outer one and
`y` that of the root.  The call is bound already and keeps its scope. -/
theorem build_scope_tree_nested :
    let x (line : UInt64) : Declaration :=
      { span := { startLine := line }, name := "x", kind := .var default }
    let y : Declaration := { name := "y", kind := .var default }
    let u : CompilationUnit Unit :=
      { declarations := [x 1, y], scopes := [⟨⟨0⟩, [x 2]⟩, ⟨⟨1⟩, []⟩],
        entries := [⟨⟨2⟩, .call { id := (), scope := some ⟨1⟩ } (.ident { id := () } "x") []⟩] }
    ∃ b, u.scopes.length < 2 ^ 32 ∧ u.build = .ok b ∧ b.env.count = 3 ∧
      b.env.parent ⟨(1 + 1).toUInt32⟩ = some ⟨1⟩ ∧
      b.env.find? ⟨2⟩ "x" = some (x 2) ∧ b.env.find? ⟨2⟩ "y" = some y ∧
      List.Forall₂ (fun e bound => e.expr.Binds e.scope bound) u.entries b.exprs := by
  intro x y u
  have hb : u.build = .ok u.described := build_eq_described (by decide) (by decide)
  obtain ⟨hcount, -, hparent, hfind, -, hexprs⟩ :=
    build_scope_tree u u.described (by decide) hb
  obtain ⟨ks, hchain, hnames⟩ := hfind ⟨2⟩ (by decide)
  have hks : ks = [2, 1, 0] := by
    obtain _ | ⟨hspec, up⟩ := hchain
    cases hspec
    obtain _ | ⟨hspec, up⟩ := up
    cases hspec
    cases up
    rfl
  subst hks
  exact ⟨u.described, by decide, hb, hcount, hparent 1 _ rfl, (hnames "x").trans (by decide),
    (hnames "y").trans (by decide), hexprs⟩

end CompilationUnit

end UnitCheck
