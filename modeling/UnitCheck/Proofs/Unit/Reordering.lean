import UnitCheck.Proofs.Unit.Isolation

/-!
# The order of declarations

`CompilationUnit.Reordered u v` says that `v` is `u` with the declarations of each scope in another
order.  Building goes through them one by one, in an environment that grows all the while, but
nothing that comes out depends on the order: neither whether the unit is built, nor what names mean,
nor the results, and of the warnings only the order (`CompilationUnit.build_reordered`).

What a document must have to be built is said without an order (`Buildable`), and all scopes of the
two units are the same (`Reordered.sameScope`), so that lookups are those of `Isolation`.  Warnings
and results follow from the lookups.
-/

set_option autoImplicit false

namespace UnitCheck

open Environment (ofList)

theorem exists_getElem?_of_forall₂ {α β : Type} {R : α → β → Prop} {as : List α} {bs : List β}
    (h : List.Forall₂ R as bs) {i : Nat} {b : β} (hb : bs[i]? = some b) :
    ∃ a, as[i]? = some a ∧ R a b := by
  induction h generalizing i with
  | nil => cases hb
  | cons hab _ ih =>
    cases i with
    | zero =>
      cases hb
      exact ⟨_, rfl, hab⟩
    | succ i => exact ih hb

namespace ScopeSpec

/-- The same scope with its declarations in some order. -/
structure Reordered (s t : ScopeSpec) : Prop where
  parent : t.parent = s.parent
  declarations : t.declarations.Perm s.declarations

end ScopeSpec

namespace CompilationUnit

variable {ι : Type} {u v : CompilationUnit ι}

/-- The same unit with the declarations of each scope in some order. -/
structure Reordered (u v : CompilationUnit ι) : Prop where
  file : v.file = u.file
  source : v.source = u.source
  declarations : v.declarations.Perm u.declarations
  scopes : List.Forall₂ ScopeSpec.Reordered u.scopes v.scopes
  entries : v.entries = u.entries

namespace Reordered

theorem symm (h : u.Reordered v) : v.Reordered u where
  file := h.file.symm
  source := h.source.symm
  declarations := h.declarations.symm
  scopes := (h.scopes.imp fun _ _ hs => ⟨hs.parent.symm, hs.declarations.symm⟩).flip
  entries := h.entries.symm

/-! ## The document -/

theorem length_scopes (h : u.Reordered v) : v.scopes.length = u.scopes.length :=
  h.scopes.length_eq.symm

theorem exists_spec (h : u.Reordered v) {i : Nat} {t : ScopeSpec} (ht : v.scopes[i]? = some t) :
    ∃ s, u.scopes[i]? = some s ∧ s.Reordered t := exists_getElem?_of_forall₂ h.scopes ht

theorem getElem?_eq_none (h : u.Reordered v) {i : Nat} (hi : v.scopes[i]? = none) :
    u.scopes[i]? = none := by
  rw [List.getElem?_eq_none_iff] at hi ⊢
  rwa [← h.length_scopes]

theorem listed_perm (h : u.Reordered v) (k : Nat) : (v.listed k).Perm (u.listed k) := by
  cases k with
  | zero => exact h.declarations
  | succ i =>
    cases hi : v.scopes[i]? with
    | none => rw [listed, listed, hi, h.getElem?_eq_none hi]
    | some t =>
      obtain ⟨s, hs, hst⟩ := h.exists_spec hi
      rw [listed_nested hi, listed_nested hs]
      exact hst.declarations

theorem parentOf_eq (h : u.Reordered v) (k : Nat) : v.parentOf k = u.parentOf k := by
  cases k with
  | zero => rfl
  | succ i =>
    cases hi : v.scopes[i]? with
    | none => rw [parentOf, parentOf, hi, h.getElem?_eq_none hi]
    | some t =>
      obtain ⟨s, hs, hst⟩ := h.exists_spec hi
      rw [parentOf, parentOf, hi, hs, Option.map_some, Option.map_some, hst.parent]

theorem sameScope (h : u.Reordered v) (k : Nat) : u.SameScope v k :=
  ⟨h.parentOf_eq k, fun _ => (h.listed_perm k).mem_iff⟩

theorem buildable (h : u.Reordered v) (hu : u.Buildable) : v.Buildable where
  nodup k := ((h.listed_perm k).map Declaration.name).nodup_iff.2 (hu.nodup k)
  parent_le {i t} ht := by
    obtain ⟨s, hs, hst⟩ := h.exists_spec ht
    rw [hst.parent]
    exact hu.parent_le hs
  not_query k d hd := hu.not_query k d ((h.listed_perm k).mem_iff.1 hd)
  scope_le e he := by
    rw [h.length_scopes]
    rw [h.entries] at he
    exact hu.scope_le e he

/-! ## The built unit -/

theorem find?_eq (h : u.Reordered v) (hu : u.WellScoped) (hv : v.WellScoped) (s : ScopeId)
    (name : String) : (ofList v.scopeList).find? s name = (ofList u.scopeList).find? s name := by
  by_cases hs : s.index.toNat ≤ u.scopes.length
  · obtain ⟨outer, hchain⟩ := hu.exists_chain hs
    exact hu.find?_eq_of_sameScope hv hchain (fun k _ => h.sameScope k) name
  · have hlt : u.scopes.length < s.index.toNat := Nat.lt_of_not_le hs
    rw [find?_eq_none_of_length_lt hlt, find?_eq_none_of_length_lt (h.length_scopes ▸ hlt)]

/-- Where names mean the same, the same declarations are warned about. -/
theorem diagnostics_perm (h : u.Reordered v)
    (hfind : ∀ s name, (ofList v.scopeList).find? s name = (ofList u.scopeList).find? s name) :
    v.described.diagnostics.Perm u.described.diagnostics := by
  have hwarning : BuildStep.warning? (ofList v.scopeList) =
      BuildStep.warning? (ofList u.scopeList) := by
    funext parent d
    simp only [BuildStep.warning?, hfind]
  rw [described, described, hwarning]
  have hscopes := h.scopes
  generalize u.scopes = specs at hscopes ⊢
  generalize v.scopes = specs' at hscopes ⊢
  induction hscopes with
  | nil => exact .nil
  | cons hst _ ih =>
    rw [List.flatMap_cons, List.flatMap_cons, hst.parent]
    exact (hst.declarations.filterMap _).append ih

end Reordered

/-- **The order of declarations does not matter.**  Of two units that differ in it, both are built
or none is.  If they are, every name means the same in every scope of both, the results are the
same, whether checking stops at a failure or not, and so are the warnings up to their order. -/
theorem build_reordered (u v : CompilationUnit ι) (hn : u.scopes.length < 2 ^ 32)
    (h : u.Reordered v) :
    ((∃ b, u.build = .ok b) ↔ ∃ b, v.build = .ok b) ∧
      ∀ bu bv, u.build = .ok bu → v.build = .ok bv →
        (∀ s name, bv.env.find? s name = bu.env.find? s name) ∧
        (∀ failFast, (bv.check failFast).results = (bu.check failFast).results) ∧
        bv.diagnostics.Perm bu.diagnostics := by
  have hnv : v.scopes.length < 2 ^ 32 := h.length_scopes ▸ hn
  refine ⟨?_, fun bu bv hbu hbv => ?_⟩
  · rw [exists_build_iff hn, exists_build_iff hnv]
    exact ⟨h.buildable, h.symm.buildable⟩
  · obtain ⟨rfl, hu⟩ := eq_described_of_build hn hbu
    obtain ⟨rfl, hv⟩ := eq_described_of_build hnv hbv
    have hfind := h.find?_eq hu hv
    have htypes : v.described.exprs.map (Expr.typeIn v.described.env) =
        u.described.exprs.map (Expr.typeIn u.described.env) := by
      have hexprs : v.described.exprs = u.described.exprs := by
        rw [described, described, h.entries]
      rw [hexprs]
      exact List.map_congr_left fun e _ => Expr.typeIn_congr e fun s _ name => hfind s name
    refine ⟨hfind, fun failFast => ?_, h.diagnostics_perm hfind⟩
    rw [BuiltUnit.results_check, BuiltUnit.results_check, htypes]

/-- Two hidden declarations the other way round: the two warnings change places, and the results
stay, also if checking stops at the first of them. -/
theorem build_reordered_hidden :
    let x (ty : String) : Declaration := { name := "x", kind := .var (.named ty) }
    let y : Declaration := { name := "y", kind := .typeName default }
    let entries : List (Entry Unit) :=
      [⟨⟨1⟩, .ident { id := () } "y"⟩, ⟨⟨1⟩, .ident { id := () } "x"⟩]
    let u : CompilationUnit Unit :=
      { declarations := [x "i32", y], scopes := [⟨⟨0⟩, [x "b", y]⟩], entries := entries }
    let v : CompilationUnit Unit :=
      { declarations := [y, x "i32"], scopes := [⟨⟨0⟩, [y, x "b"]⟩], entries := entries }
    ∃ bu bv, u.scopes.length < 2 ^ 32 ∧ u.Reordered v ∧ u.build = .ok bu ∧ v.build = .ok bv ∧
      bv.env.find? ⟨1⟩ "x" = some (x "b") ∧
      (bv.check false).results =
        [.error (.unresolvedName "y" {} (.declaredAs "type name")), .ok (.named "b")] ∧
      (bv.check true).results = (bu.check true).results ∧
      bv.diagnostics.Perm bu.diagnostics ∧ bv.diagnostics ≠ bu.diagnostics := by
  intro x y entries u v
  have hreordered : u.Reordered v :=
    ⟨rfl, rfl, .swap _ _ _, .cons ⟨rfl, .swap _ _ _⟩ .nil, rfl⟩
  have hbu : u.build = .ok u.described := build_eq_described (by decide) (by decide)
  have hbv : v.build = .ok v.described := build_eq_described (by decide) (by decide)
  obtain ⟨hfind, hresults, hperm⟩ := (build_reordered u v (by decide) hreordered).2 _ _ hbu hbv
  exact ⟨_, _, by decide, hreordered, hbu, hbv, (hfind ⟨1⟩ "x").trans (by decide +kernel),
    (hresults false).trans (by decide +kernel), hresults true, hperm, by decide +kernel⟩

end CompilationUnit

end UnitCheck
