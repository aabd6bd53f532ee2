import UnitCheck.Proofs.Environment.Reachable
import UnitCheck.Proofs.Resolve.Names
import UnitCheck.Proofs.Unit.Report
import UnitCheck.Proofs.Unit.ScopeTree

/-!
# Results depend on the scopes around an expression

What an expression of a unit has as its type is told by the way from its scope to the root.  Two
units may have different scopes and expressions otherwise, and other declarations of the same names
in them: if the scopes on that way are the same in both (`CompilationUnit.SameScope`), so is the
result (`CompilationUnit.check_isolated`).

The declarations of a scope are compared as sets, which is enough because names are distinct in each
list (`find?_eq_of_mem_iff`).
-/

set_option autoImplicit false

namespace UnitCheck

open Environment (ofList)

/-- Lists with the same declarations and distinct names have the same declaration of a name. -/
theorem find?_eq_of_mem_iff {ds es : List Declaration} (hds : (ds.map Declaration.name).Nodup)
    (hes : (es.map Declaration.name).Nodup) (h : ∀ d, d ∈ es ↔ d ∈ ds) (name : String) :
    (es.find? fun d => d.name == name) = ds.find? fun d => d.name == name := by
  refine Option.ext fun d => ?_
  have hfound : (Scope.mk none ds).get? name = some d ↔ d ∈ ds ∧ d.name = name :=
    Scope.get?_eq_some_iff hds
  have hfound' : (Scope.mk none es).get? name = some d ↔ d ∈ es ∧ d.name = name :=
    Scope.get?_eq_some_iff hes
  exact hfound'.trans ((and_congr_left fun _ => h d).trans hfound.symm)

namespace CompilationUnit

variable {ι : Type} {u v : CompilationUnit ι}

/-- The parent that the document gives a scope; the root has none. -/
def parentOf (u : CompilationUnit ι) : Nat → Option ScopeId
  | 0 => none
  | i + 1 => u.scopes[i]?.map ScopeSpec.parent

/-- A scope is the same in two units: it has the same parent and lists the same declarations, in
whatever order. -/
structure SameScope (u v : CompilationUnit ι) (k : Nat) : Prop where
  parent : v.parentOf k = u.parentOf k
  mem_listed : ∀ d, d ∈ v.listed k ↔ d ∈ u.listed k

/-! ## Lookups -/

theorem Chain.of_sameScope {k : Nat} {ks : List Nat} (h : u.Chain k ks)
    (hsame : ∀ j ∈ ks, u.SameScope v j) : v.Chain k ks := by
  induction h with
  | root => exact .root
  | @nested i spec ks hspec up ih =>
    obtain ⟨hscope, hup⟩ := List.forall_mem_cons.1 hsame
    have hparent : v.scopes[i]?.map ScopeSpec.parent = some spec.parent :=
      hscope.parent.trans (congrArg (Option.map ScopeSpec.parent) hspec)
    obtain ⟨spec', hspec', hp⟩ := Option.map_eq_some_iff.1 hparent
    refine .nested hspec' ?_
    rw [hp]
    exact ih hup

theorem WellScoped.nearest_eq (hu : u.WellScoped) (hv : v.WellScoped) {ks : List Nat}
    (hsame : ∀ k ∈ ks, u.SameScope v k) (name : String) :
    v.nearest ks name = u.nearest ks name := by
  induction ks with
  | nil => rfl
  | cons k ks ih =>
    obtain ⟨hscope, hrest⟩ := List.forall_mem_cons.1 hsame
    rw [nearest, nearest, List.findSome?_cons, List.findSome?_cons,
      find?_eq_of_mem_iff (hu.nodup k) (hv.nodup k) hscope.mem_listed]
    cases (u.listed k).find? fun d => d.name == name with
    | none => exact ih hrest
    | some d => rfl

/-- **A lookup sees nothing but the scopes on the way up.** -/
theorem WellScoped.find?_eq_of_sameScope (hu : u.WellScoped) (hv : v.WellScoped) {s : ScopeId}
    {ks : List Nat} (h : u.Chain s.index.toNat ks) (hsame : ∀ k ∈ ks, u.SameScope v k)
    (name : String) :
    (ofList v.scopeList).find? s name = (ofList u.scopeList).find? s name := by
  rw [hv.find?_eq_nearest (h.of_sameScope hsame), hu.find?_eq_nearest h, hu.nearest_eq hv hsame]

/-! ## Results -/

/-- Where checking does not stop, the result of an entry stands at its position. -/
theorem getElem?_results {b : BuiltUnit ι} (h : u.build = .ok b) {i : Nat} {e : Entry ι}
    (hi : u.entries[i]? = some e) :
    (b.check false).results[i]? = some ((e.expr.bind e.scope).typeIn b.env) := by
  rw [BuiltUnit.results_check, if_neg Bool.false_ne_true, (made_of_build h).2.1, List.getElem?_map,
    List.getElem?_map, hi]
  rfl

/-- **Results are isolated.**  An entry that stands in two units, at whatever positions, with the
same unbound expression and in the same scope, has the same result in both, if the scopes on the way
from its scope to the root are the same in both.  All other scopes, what is declared in them, and
all other expressions may differ. -/
theorem check_isolated (u v : CompilationUnit ι) (bu bv : BuiltUnit ι)
    (hnu : u.scopes.length < 2 ^ 32) (hnv : v.scopes.length < 2 ^ 32)
    (hbu : u.build = .ok bu) (hbv : v.build = .ok bv) (e : Entry ι) (i j : Nat)
    (hi : u.entries[i]? = some e) (hj : v.entries[j]? = some e)
    (hunbound : ∀ x : Expr ι, x.Within e.expr → x.scope = none) (ks : List Nat)
    (hchain : u.Chain e.scope.index.toNat ks) (hsame : ∀ k ∈ ks, u.SameScope v k) :
    ∃ r, (bu.check false).results[i]? = some r ∧ (bv.check false).results[j]? = some r := by
  have hru := getElem?_results hbu hi
  have hrv := getElem?_results hbv hj
  obtain ⟨rfl, hu⟩ := eq_described_of_build hnu hbu
  obtain ⟨rfl, hv⟩ := eq_described_of_build hnv hbv
  refine ⟨_, hru, hrv.trans (congrArg some (Expr.typeIn_congr _ fun s hs name => ?_))⟩
  rw [Expr.Unbound.scope_head_bind hunbound, Option.some.injEq] at hs
  subst hs
  exact hu.find?_eq_of_sameScope hv hchain hsame name

/-- The second unit lists the root's declarations the other way round, hides `x` in scopes inside
and beside that of the entry, and has another expression first. -/
theorem check_isolated_hidden :
    let x (ty : String) : Declaration := { name := "x", kind := .var (.named ty) }
    let y : Declaration := { name := "y", kind := .typeName default }
    let e : Entry Unit := ⟨⟨1⟩, .ident { id := () } "x"⟩
    let u : CompilationUnit Unit :=
      { declarations := [x "i32", y], scopes := [⟨⟨0⟩, []⟩], entries := [e] }
    let v : CompilationUnit Unit :=
      { declarations := [y, x "i32"], scopes := [⟨⟨0⟩, []⟩, ⟨⟨1⟩, [x "b"]⟩, ⟨⟨0⟩, [x "b"]⟩],
        entries := [⟨⟨2⟩, .ident { id := () } "x"⟩, e] }
    ∃ bu bv, u.scopes.length < 2 ^ 32 ∧ v.scopes.length < 2 ^ 32 ∧ u.build = .ok bu ∧
      v.build = .ok bv ∧ u.entries[0]? = some e ∧ v.entries[1]? = some e ∧
      (∀ z : Expr Unit, z.Within e.expr → z.scope = none) ∧ u.Chain 1 [1, 0] ∧
      (∀ k ∈ [1, 0], u.SameScope v k) ∧
      (bu.check false).results = [.ok (.named "i32")] ∧
      (bv.check false).results[1]? = some (.ok (.named "i32")) := by
  intro x y e u v
  have hbu : u.build = .ok u.described := build_eq_described (by decide) (by decide)
  have hbv : v.build = .ok v.described := build_eq_described (by decide) (by decide)
  have hunbound : e.expr.Unbound := Expr.unbound_ident rfl "x"
  have hchain : u.Chain 1 [1, 0] := .nested rfl .root
  have hsame : ∀ k ∈ [1, 0], u.SameScope v k := by
    refine List.forall_mem_cons.2 ⟨⟨rfl, fun d => Iff.rfl⟩, List.forall_mem_singleton.2 ⟨rfl, ?_⟩⟩
    exact fun d => (List.Perm.swap (x "i32") y []).mem_iff
  have hresults : (u.described.check false).results = [.ok (.named "i32")] := by decide +kernel
  obtain ⟨r, hru, hrv⟩ := check_isolated u v _ _ (by decide) (by decide) hbu hbv e 0 1 rfl rfl
    hunbound [1, 0] hchain hsame
  rw [hresults] at hru
  cases hru
  exact ⟨_, _, by decide, by decide, hbu, hbv, rfl, rfl, hunbound, hchain, hsame, hresults, hrv⟩

end CompilationUnit

end UnitCheck
