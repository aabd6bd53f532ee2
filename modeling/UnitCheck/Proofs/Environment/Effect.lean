import UnitCheck.Proofs.Environment.Lookup

/-!
# What a call changes

A declaration goes into one scope, but other scopes may find something else after it: those inside
that scope which have nothing nearer of the name (`Environment.Declared`).  A scope that is opened
finds what its parent finds, and the other scopes do not notice it (`Environment.Opened`).  A call
that is refused changes nothing.

What a call does to single scopes is said first, by `own?` and `parent` (`own?_declare`,
`parent_declare`, `scope?_child`).  What it does to lookups is then shown from parents to children.
-/

set_option autoImplicit false

namespace UnitCheck

namespace Environment

variable {env grown : Environment} {s : ScopeId} {d : Declaration}

/-! ## Declaring -/

/-- **What is refused**, and why: a query, then a scope that does not exist, then a name that the
scope declares already. -/
theorem declare_eq_error_iff {e : ScopeError} :
    env.declare s d = .error e ↔
      d.kind = .query ∧ e = .queryDeclaration d.name ∨
      d.kind ≠ .query ∧ env.contains s = false ∧ e = .unknownScope s ∨
      d.kind ≠ .query ∧ ∃ previous, env.own? s d.name = some previous ∧
        e = .duplicate d.name d.span previous.span := by
  rw [← scope?_eq_none_iff, declare, own?]
  by_cases hquery : d.kind = .query
  · rw [if_pos (Declaration.isQuery_iff.2 hquery)]
    simp [hquery, eq_comm]
  · rw [if_neg (Declaration.isQuery_iff.not.2 hquery)]
    cases hscope : env.scope? s with
    | none => simp [hquery, eq_comm]
    | some scope => cases hget : scope.get? d.name <;> simp [hquery, hget, eq_comm]

theorem exists_declare_iff :
    (∃ grown, env.declare s d = .ok grown) ↔
      d.isQuery = false ∧ env.contains s = true ∧ env.own? s d.name = none := by
  constructor
  · rintro ⟨grown, h⟩
    obtain ⟨hquery, scope, hscope, hnew, -⟩ := declare_eq_ok_iff.1 h
    refine ⟨hquery, decide_eq_true (Array.getElem?_eq_some_iff.1 hscope).1, ?_⟩
    rw [own?, hscope, Option.bind_some, hnew]
  · rintro ⟨hquery, hs, hnew⟩
    cases hscope : env.scope? s with
    | none =>
      rw [scope?_eq_none_iff, hs] at hscope
      cases hscope
    | some scope =>
      rw [own?, hscope, Option.bind_some] at hnew
      exact ⟨_, declare_eq_ok_iff.2 ⟨hquery, scope, hscope, hnew, rfl⟩⟩

theorem scope?_declare (h : env.declare s d = .ok grown) (t : ScopeId) :
    grown.scope? t =
      if t = s then
        (env.scope? s).map fun scope => { scope with declarations := d :: scope.declarations }
      else env.scope? t := by
  obtain ⟨-, scope, hscope, -, rfl⟩ := declare_eq_ok_iff.1 h
  have hlt : s.index.toNat < env.scopes.size := (Array.getElem?_eq_some_iff.1 hscope).1
  by_cases hts : t = s
  · subst hts
    rw [if_pos rfl, hscope, scope?, Array.getElem?_setIfInBounds_self_of_lt hlt, Option.map_some]
  · have hne : s.index.toNat ≠ t.index.toNat := fun h => hts (ScopeId.toNat_index_inj.1 h.symm)
    rw [if_neg hts, scope?, Array.getElem?_setIfInBounds_ne hne, scope?]

theorem parent_declare (h : env.declare s d = .ok grown) (t : ScopeId) :
    grown.parent t = env.parent t := by
  rw [parent, scope?_declare h, parent]
  by_cases hts : t = s
  · rw [if_pos hts, hts, Option.bind_map]
    rfl
  · rw [if_neg hts]

/-- A declaration is what its scope declares under its name, and no other name of any scope is
concerned. -/
theorem own?_declare (h : env.declare s d = .ok grown) (t : ScopeId) (name : String) :
    grown.own? t name = if t = s ∧ name = d.name then some d else env.own? t name := by
  rw [own?, scope?_declare h, own?]
  by_cases hts : t = s
  · obtain ⟨-, scope, hscope, -, -⟩ := declare_eq_ok_iff.1 h
    rw [if_pos hts, hts, hscope, Option.map_some, Option.bind_some, Option.bind_some, Scope.get?,
      List.find?_cons, Scope.get?]
    by_cases hname : name = d.name
    · rw [hname, beq_self_eq_true, if_pos ⟨rfl, rfl⟩]
    · rw [beq_false_of_ne (Ne.symm hname), if_neg fun h => hname h.2]
  · rw [if_neg hts, if_neg fun h => hts h.1]

/-- What changes where a declaration is made.  A scope finds it under its name if it is made on the
way up and nothing before that declares the name; all else that is found stays as it was. -/
structure Declared (env : Environment) (s : ScopeId) (d : Declaration) (grown : Environment) :
    Prop where
  count : grown.count = env.count
  parent : ∀ t, grown.parent t = env.parent t
  found : ∀ t, env.ClearTo d.name t s → grown.find? t d.name = some d
  kept : ∀ t name, ¬(name = d.name ∧ env.ClearTo name t s) →
    grown.find? t name = env.find? t name

theorem Valid.find?_declare (hv : env.Valid) (h : env.declare s d = .ok grown) {t : ScopeId}
    (hclear : env.ClearTo d.name t s) : grown.find? t d.name = some d := by
  induction t using hv.scope_induction with
  | step t ih =>
    rw [(hv.declare h).find?_eq_or, own?_declare h, shadowed?, parent_declare h]
    by_cases hts : t = s
    · rw [if_pos ⟨hts, rfl⟩, Option.some_or]
    · rcases clearTo_iff.1 hclear with rfl | ⟨hnone, p, hp, hclear⟩
      · exact absurd rfl hts
      · rw [if_neg fun h => hts h.1, hnone, Option.none_or, hp, Option.bind_some]
        exact ih p hp hclear

/-- Where the declaration is not seen, a scope finds what it found before. -/
theorem Valid.find?_declare_of_not (hv : env.Valid) (h : env.declare s d = .ok grown) {t : ScopeId}
    {name : String} (hnot : ¬(name = d.name ∧ env.ClearTo name t s)) :
    grown.find? t name = env.find? t name := by
  induction t using hv.scope_induction with
  | step t ih =>
    -- the scope itself is the start of a clear way, so its own declarations are the same as before
    have hts : ¬(t = s ∧ name = d.name) := by
      rintro ⟨rfl, hname⟩
      exact hnot ⟨hname, clearTo_self env name t⟩
    rw [(hv.declare h).find?_eq_or, hv.find?_eq_or, own?_declare h, if_neg hts, shadowed?,
      shadowed?, parent_declare h]
    cases hown : env.own? t name with
    | some _ => rfl
    | none =>
      cases hp : env.parent t with
      | none => rfl
      | some p =>
        refine ih p hp fun hseen => hnot ⟨hseen.1, ?_⟩
        exact clearTo_iff.2 (.inr ⟨hown, p, hp, hseen.2⟩)

theorem Valid.declared (hv : env.Valid) (h : env.declare s d = .ok grown) :
    env.Declared s d grown where
  count := count_declare h
  parent := parent_declare h
  found _ := hv.find?_declare h
  kept _ _ := hv.find?_declare_of_not h

/-! ## Opening -/

variable {p : ScopeId}

theorem child_eq_error_iff {e : ScopeError} :
    env.child p = .error e ↔ env.contains p = false ∧ e = .unknownScope p := by
  rw [child]
  cases env.contains p <;> simp [eq_comm]

/-- The scope that is opened, as long as its number fits. -/
theorem scope?_child (hn : env.count < 2 ^ 32) (h : env.child p = .ok (s, grown)) :
    grown.scope? s = some { parent := some p } := by
  obtain ⟨-, rfl, rfl⟩ := child_eq_ok_iff.1 h
  rw [scope?, toNat_toUInt32 hn]
  exact Array.getElem?_push_size

theorem scope?_child_of_contains (h : env.child p = .ok (s, grown)) {t : ScopeId}
    (ht : env.contains t = true) : grown.scope? t = env.scope? t := by
  obtain ⟨-, -, rfl⟩ := child_eq_ok_iff.1 h
  have hlt : t.index.toNat < env.scopes.size := of_decide_eq_true ht
  rw [scope?, scope?, Array.getElem?_push_lt hlt, Array.getElem?_eq_getElem hlt]

theorem find?_child_of_contains (h : env.child p = .ok (s, grown)) {t : ScopeId}
    (ht : env.contains t = true) (name : String) : grown.find? t name = env.find? t name := by
  obtain ⟨-, -, rfl⟩ := child_eq_ok_iff.1 h
  have hgrown : Environment.mk (env.scopes.push { parent := some p }) =
      ofList (env.scopes.toList ++ [{ parent := some p }]) :=
    congrArg Environment.mk (List.push_toArray env.scopes.toList _)
  have hlt : t.index.toNat < env.scopes.toList.length := of_decide_eq_true ht
  rw [hgrown]
  exact find?_append _ hlt name

/-- What changes where a scope is opened.  The scope is new and is inside its parent; it finds what
its parent finds, and all scopes that were there have the same parents and find what they found. -/
structure Opened (env : Environment) (p s : ScopeId) (grown : Environment) : Prop where
  count : grown.count = env.count + 1
  fresh : env.contains s = false
  contains : grown.contains s = true
  parent : grown.parent s = some p
  find? : ∀ name, grown.find? s name = grown.find? p name
  parent_old : ∀ t, env.contains t = true → grown.parent t = env.parent t
  find?_old : ∀ t name, env.contains t = true → grown.find? t name = env.find? t name

theorem Valid.opened (hv : env.Valid) (hn : env.count < 2 ^ 32) (h : env.child p = .ok (s, grown)) :
    env.Opened p s grown := by
  have hscope := scope?_child hn h
  have hs : s.index.toNat = env.count := by
    obtain ⟨-, rfl, -⟩ := child_eq_ok_iff.1 h
    exact toNat_toUInt32 hn
  have hparent : grown.parent s = some p := by rw [Environment.parent, hscope, Option.bind_some]
  refine ⟨count_child h, ?_, ?_, hparent, fun name => ?_, fun t ht => ?_,
    fun t name ht => find?_child_of_contains h ht name⟩
  · rw [Environment.contains, hs]
    simp
  · rw [Environment.contains, hs, count_child h]
    simp
  · rw [(hv.child h).find?_eq_or, own?, hscope, Option.bind_some, shadowed?, hparent]
    rfl
  · rw [Environment.parent, scope?_child_of_contains h ht, Environment.parent]

/-! ## Both calls -/

/-- **What calls do, and all that they do**, in an environment that any calls have led to.

A declaration is refused if it is a query; if not, in a scope that does not exist; and if not, in a
scope that declares the name already, with the span of the declaration that is there.  Refused, it
changes nothing, and accepted, it changes what `Declared` says.

Opening a scope is refused in a scope that does not exist, and then changes nothing.  Otherwise it
changes what `Opened` says, as long as there is a number for the new scope. -/
theorem declare_child_effect (calls : List Call) :
    let env := ofCalls calls
    (∀ (s : ScopeId) (d : Declaration),
      (∀ e, env.declare s d = .error e ↔
        d.kind = .query ∧ e = .queryDeclaration d.name ∨
        d.kind ≠ .query ∧ env.contains s = false ∧ e = .unknownScope s ∨
        d.kind ≠ .query ∧ ∃ previous, env.own? s d.name = some previous ∧
          e = .duplicate d.name d.span previous.span) ∧
      (∀ e, env.declare s d = .error e → env.after (.declare s d) = env) ∧
      ∀ grown, env.declare s d = .ok grown →
        env.after (.declare s d) = grown ∧ env.Declared s d grown) ∧
    ∀ p : ScopeId,
      (∀ e, env.child p = .error e ↔ env.contains p = false ∧ e = .unknownScope p) ∧
      (∀ e, env.child p = .error e → env.after (.child p) = env) ∧
      ∀ s grown, env.child p = .ok (s, grown) → env.count < 2 ^ 32 →
        env.after (.child p) = grown ∧ env.Opened p s grown := by
  intro env
  have hv : env.Valid := valid_ofCalls calls
  refine ⟨fun s d => ⟨fun e => declare_eq_error_iff, fun e he => ?_, fun grown h => ?_⟩,
    fun p => ⟨fun e => child_eq_error_iff, fun e he => ?_, fun s grown h hn => ?_⟩⟩
  · rw [after, he]
  · exact ⟨after_declare h, hv.declared h⟩
  · rw [after, he]
  · exact ⟨after_child h, hv.opened hn h⟩

end Environment

end UnitCheck
