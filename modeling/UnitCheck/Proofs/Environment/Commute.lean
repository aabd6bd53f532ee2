import UnitCheck.Proofs.Environment.Effect

/-!
# Declarations in any order

`Environment.declareAll` makes declarations one after the other, in whatever scopes.  Each of them
changes what the next one meets, and yet the order does not matter: declarations that are all
accepted in one order are all accepted in any other, and names mean the same afterwards
(`declareAll_perm`).

The reason is that both can be said without an order.  What it takes for all of them to be accepted
is `Environment.Acceptable` (`exists_declareAll_iff`), and what scopes declare afterwards is told by
which declarations there are (`own?_declareAll`).
-/

set_option autoImplicit false

namespace UnitCheck

namespace Environment

variable {env grown final : Environment} {s : ScopeId} {d : Declaration}
  {ds es : List (ScopeId × Declaration)}

/-- Make declarations one after the other, each in its scope.  The first that is refused ends it. -/
def declareAll (env : Environment) (ds : List (ScopeId × Declaration)) :
    Except ScopeError Environment :=
  ds.foldlM (fun env p => env.declare p.1 p.2) env

/-- What it takes for declarations to be accepted: none is a query, their scopes exist, and each has
a name that is new to its scope, also among themselves. -/
structure Acceptable (env : Environment) (ds : List (ScopeId × Declaration)) : Prop where
  not_query : ∀ p ∈ ds, p.2.isQuery = false
  contains : ∀ p ∈ ds, env.contains p.1 = true
  new : ∀ p ∈ ds, env.own? p.1 p.2.name = none
  nodup : (ds.map fun p => (p.1, p.2.name)).Nodup

theorem Acceptable.perm (h : env.Acceptable ds) (hperm : ds.Perm es) : env.Acceptable es where
  not_query p hp := h.not_query p (hperm.mem_iff.2 hp)
  contains p hp := h.contains p (hperm.mem_iff.2 hp)
  new p hp := h.new p (hperm.mem_iff.2 hp)
  nodup := (hperm.map _).nodup_iff.1 h.nodup

/-! ## One declaration at a time -/

theorem declareAll_cons_eq_ok_iff :
    env.declareAll ((s, d) :: ds) = .ok final ↔
      ∃ grown, env.declare s d = .ok grown ∧ grown.declareAll ds = .ok final := by
  rw [declareAll, List.foldlM_cons]
  constructor
  · exact exists_of_bind_eq_ok
  · rintro ⟨grown, h, hrest⟩
    rw [h]
    exact hrest

/-- Once the first declaration is made, the others need no more and no less than before. -/
theorem acceptable_cons_iff (h : env.declare s d = .ok grown) :
    env.Acceptable ((s, d) :: ds) ↔ grown.Acceptable ds := by
  have hcontains : ∀ t, grown.contains t = env.contains t := fun t => by
    rw [contains, count_declare h, contains]
  obtain ⟨hquery, hs, hnone⟩ := exists_declare_iff.1 ⟨grown, h⟩
  constructor
  · intro hall
    obtain ⟨hkey, hnodup⟩ := List.nodup_cons.1 hall.nodup
    refine ⟨fun p hp => hall.not_query p (List.mem_cons_of_mem _ hp), fun p hp => ?_,
      fun p hp => ?_, hnodup⟩
    · rw [hcontains]
      exact hall.contains p (List.mem_cons_of_mem _ hp)
    · rw [own?_declare h, if_neg]
      · exact hall.new p (List.mem_cons_of_mem _ hp)
      · rintro ⟨hp1, hp2⟩
        exact hkey (List.mem_map.2 ⟨p, hp, Prod.ext hp1 hp2⟩)
  · intro hrest
    -- a declaration of the same name would be refused by the scope as it is now
    have hother : ∀ p ∈ ds, ¬(p.1 = s ∧ p.2.name = d.name) := by
      intro p hp hsame
      have hnew := hrest.new p hp
      rw [own?_declare h, if_pos hsame] at hnew
      cases hnew
    refine ⟨List.forall_mem_cons.2 ⟨hquery, hrest.not_query⟩,
      List.forall_mem_cons.2 ⟨hs, fun p hp => ?_⟩, List.forall_mem_cons.2 ⟨hnone, fun p hp => ?_⟩,
      List.nodup_cons.2 ⟨fun hkey => ?_, hrest.nodup⟩⟩
    · rw [← hcontains]
      exact hrest.contains p hp
    · have hnew := hrest.new p hp
      rwa [own?_declare h, if_neg (hother p hp)] at hnew
    · obtain ⟨p, hp, hkey⟩ := List.mem_map.1 hkey
      exact hother p hp (Prod.mk.inj hkey)

/-! ## All declarations -/

/-- **When declarations are all accepted**, said without the order. -/
theorem exists_declareAll_iff :
    (∃ final, env.declareAll ds = .ok final) ↔ env.Acceptable ds := by
  induction ds generalizing env with
  | nil => exact ⟨fun _ => ⟨by simp, by simp, by simp, List.nodup_nil⟩, fun _ => ⟨env, rfl⟩⟩
  | cons p ds ih =>
    constructor
    · rintro ⟨final, hfinal⟩
      obtain ⟨grown, h, hrest⟩ := declareAll_cons_eq_ok_iff.1 hfinal
      exact (acceptable_cons_iff h).2 (ih.1 ⟨final, hrest⟩)
    · intro hall
      obtain ⟨grown, h⟩ := exists_declare_iff.2 ⟨hall.not_query p List.mem_cons_self,
        hall.contains p List.mem_cons_self, hall.new p List.mem_cons_self⟩
      obtain ⟨final, hrest⟩ := ih.2 ((acceptable_cons_iff h).1 hall)
      exact ⟨final, declareAll_cons_eq_ok_iff.2 ⟨grown, h, hrest⟩⟩

theorem Valid.declareAll (hv : env.Valid) (h : env.declareAll ds = .ok final) : final.Valid := by
  induction ds generalizing env with
  | nil =>
    cases h
    exact hv
  | cons p ds ih =>
    obtain ⟨grown, hgrown, hrest⟩ := declareAll_cons_eq_ok_iff.1 h
    exact ih (hv.declare hgrown) hrest

theorem parent_declareAll (h : env.declareAll ds = .ok final) (t : ScopeId) :
    final.parent t = env.parent t := by
  induction ds generalizing env with
  | nil =>
    cases h
    rfl
  | cons p ds ih =>
    obtain ⟨grown, hgrown, hrest⟩ := declareAll_cons_eq_ok_iff.1 h
    rw [ih hrest, parent_declare hgrown]

/-- **What scopes declare afterwards**, said without the order. -/
theorem own?_declareAll (h : env.declareAll ds = .ok final) {t : ScopeId} {name : String}
    {x : Declaration} :
    final.own? t name = some x ↔
      env.own? t name = some x ∨ (t, x) ∈ ds ∧ x.name = name := by
  induction ds generalizing env with
  | nil =>
    cases h
    simp
  | cons p ds ih =>
    obtain ⟨s, d⟩ := p
    obtain ⟨grown, hgrown, hrest⟩ := declareAll_cons_eq_ok_iff.1 h
    obtain ⟨-, -, hnone⟩ := exists_declare_iff.1 ⟨grown, hgrown⟩
    rw [ih hrest, own?_declare hgrown, List.mem_cons, Prod.mk.injEq]
    by_cases hnew : t = s ∧ name = d.name
    · obtain ⟨rfl, rfl⟩ := hnew
      rw [if_pos ⟨rfl, rfl⟩, hnone]
      constructor
      · rintro (hx | ⟨hx, hname⟩)
        · cases hx
          exact .inr ⟨.inl ⟨rfl, rfl⟩, rfl⟩
        · exact .inr ⟨.inr hx, hname⟩
      · rintro (hx | ⟨⟨-, rfl⟩ | hx, hname⟩)
        · cases hx
        · exact .inl rfl
        · exact .inr ⟨hx, hname⟩
    · rw [if_neg hnew]
      refine or_congr_right (and_congr_left fun hname => ⟨.inr, ?_⟩)
      rintro (⟨ht, rfl⟩ | hx)
      · exact absurd ⟨ht, hname.symm⟩ hnew
      · exact hx

/-! ## Lookups -/

/-- Lookups follow the parents and ask each scope for its own declaration, and nothing else. -/
theorem Valid.find?_congr {env' : Environment} (hv : env.Valid) (hv' : env'.Valid)
    (hparent : ∀ t, env'.parent t = env.parent t)
    (hown : ∀ t name, env'.own? t name = env.own? t name) (t : ScopeId) (name : String) :
    env'.find? t name = env.find? t name := by
  induction t using hv.scope_induction with
  | step t ih =>
    rw [hv'.find?_eq_or, hv.find?_eq_or, hown, shadowed?, shadowed?, hparent]
    cases hp : env.parent t with
    | none => rfl
    | some p => rw [Option.bind_some, Option.bind_some, ih p hp]

/-- **Accepted declarations commute.**  If declarations, in whatever scopes, are all accepted one
after the other, in an environment that any calls have led to, then they are all accepted in any
other order.  What is found from a scope is the same after both, and so is what the scope hides. -/
theorem declareAll_perm (calls : List Call) (ds es : List (ScopeId × Declaration))
    (final : Environment) (h : (ofCalls calls).declareAll ds = .ok final) (hperm : ds.Perm es) :
    ∃ final', (ofCalls calls).declareAll es = .ok final' ∧
      ∀ s name, final'.find? s name = final.find? s name ∧
        final'.shadowed? s name = final.shadowed? s name := by
  obtain ⟨final', h'⟩ :=
    exists_declareAll_iff.2 ((exists_declareAll_iff.1 ⟨final, h⟩).perm hperm)
  have hv : (ofCalls calls).Valid := valid_ofCalls calls
  have hparent : ∀ t, final'.parent t = final.parent t := fun t => by
    rw [parent_declareAll h', parent_declareAll h]
  have hown : ∀ t name, final'.own? t name = final.own? t name := fun t name => by
    refine Option.ext fun x => ?_
    rw [own?_declareAll h', own?_declareAll h, hperm.mem_iff]
  have hfind := (hv.declareAll h).find?_congr (hv.declareAll h') hparent hown
  refine ⟨final', h', fun s name => ⟨hfind s name, ?_⟩⟩
  simp only [shadowed?, hparent, hfind]

/-- Declarations of `x` in three scopes, one inside the other, with another name beside the
innermost one: made from the inside out, each hides the next one outwards all the same. -/
theorem declareAll_perm_nested :
    let x (line : UInt64) : Declaration :=
      { span := { startLine := line }, name := "x", kind := .var default }
    let y : Declaration := { name := "y", kind := .typeName default }
    let calls : List Call := [.child ⟨0⟩, .child ⟨1⟩]
    let ds : List (ScopeId × Declaration) := [(⟨0⟩, x 1), (⟨1⟩, x 2), (⟨2⟩, y), (⟨2⟩, x 3)]
    ∃ final final', (ofCalls calls).declareAll ds = .ok final ∧ ds.Perm ds.reverse ∧
      (ofCalls calls).declareAll ds.reverse = .ok final' ∧
      final'.find? ⟨2⟩ "x" = some (x 3) ∧ final'.shadowed? ⟨2⟩ "x" = some (x 2) := by
  intro x y calls ds
  have hrun : ((ofCalls calls).declareAll ds).toOption.map (fun final =>
      (final.find? ⟨2⟩ "x", final.shadowed? ⟨2⟩ "x")) = some (some (x 3), some (x 2)) := by
    decide +kernel
  obtain ⟨final, hfinal, hfound⟩ := Option.map_eq_some_iff.1 hrun
  rw [Prod.mk.injEq] at hfound
  have h := eq_ok_of_toOption hfinal
  have hperm : ds.Perm ds.reverse := ds.reverse_perm.symm
  obtain ⟨final', h', hsame⟩ := declareAll_perm calls ds ds.reverse final h hperm
  obtain ⟨hfind, hshadowed⟩ := hsame ⟨2⟩ "x"
  exact ⟨final, final', h, hperm, h', hfind.trans hfound.1, hshadowed.trans hfound.2⟩

end Environment

end UnitCheck
