import UnitCheck.Proofs.Unit.Calls
import UnitCheck.Proofs.Unit.ScopeTree

/-!
# Warnings about hidden declarations

While a unit is built, each declaration is looked at once, before it and all that follows it are in
place.  `build_diagnostics` says that this makes no difference: the warnings are those that the
finished environment calls for, one for each declaration of the document that hides another one.

`CompilationUnit.placed` lists the declarations with the scopes they stand in.  The parents of a
scope are what decides, and they are the same in the document and in the environment
(`warning?_parent`).
-/

set_option autoImplicit false

namespace UnitCheck

open Environment (ofList)

namespace CompilationUnit

variable {ι : Type} {u : CompilationUnit ι} {b : BuiltUnit ι}

/-- All declarations in the order of the document, each with its scope. -/
def placed (u : CompilationUnit ι) : List (ScopeId × Declaration) :=
  u.declarations.map (fun d => (⟨0⟩, d)) ++
    u.scopes.zipIdx.flatMap fun p => p.1.declarations.map fun d => (⟨(p.2 + 1).toUInt32⟩, d)

/-! ## Scope by scope -/

theorem shadowed?_root (u : CompilationUnit ι) (name : String) :
    (ofList u.scopeList).shadowed? ⟨0⟩ name = none := by
  rw [Environment.shadowed?, parent_root, Option.bind_none]

/-- Whether a declaration is warned about depends on the parent of its scope alone. -/
theorem warning?_parent (env : Environment) (s : ScopeId) (d : Declaration) :
    BuildStep.warning? env (env.parent s) d =
      (env.shadowed? s d.name).map (Building.shadowWarning d) := by
  rw [BuildStep.warning?, Environment.shadowed?]

/-- The warnings of a finished environment, scope by scope. -/
theorem filterMap_placed (hn : u.scopes.length < 2 ^ 32) :
    (u.placed.filterMap fun p =>
        ((ofList u.scopeList).shadowed? p.1 p.2.name).map (Building.shadowWarning p.2)) =
      u.described.diagnostics := by
  have hroot : (u.declarations.map fun d => ((⟨0⟩ : ScopeId), d)).filterMap (fun p =>
      ((ofList u.scopeList).shadowed? p.1 p.2.name).map (Building.shadowWarning p.2)) = [] := by
    rw [List.filterMap_map, List.filterMap_eq_nil_iff]
    intro d _
    rw [Function.comp_apply, shadowed?_root, Option.map_none]
  rw [placed, List.filterMap_append, hroot, List.nil_append, List.filterMap_flatMap, described]
  conv_rhs => rw [← List.zipIdx_map_fst 0 u.scopes, List.flatMap_map]
  refine List.flatMap_congr fun p hp => ?_
  have hi : u.scopes[p.2]? = some p.1 := List.mem_zipIdx_iff_getElem?.1 hp
  rw [List.filterMap_map, ← parent_nested hi (toNat_index_nested hn hi)]
  exact List.filterMap_congr fun d _ => (warning?_parent _ _ d).symm

/-- **The warnings of a built unit** are, in the order of the document, one for each declaration
whose name has another one in the scopes around it, in the finished environment.  The note of a
warning points at that other declaration, which is the nearest one that the document lists on the
way from the scope to the root, the scope itself left out.  So there is none about the root's
declarations, and none of them is an error. -/
theorem build_diagnostics (u : CompilationUnit ι) (b : BuiltUnit ι)
    (hn : u.scopes.length < 2 ^ 32) (h : u.build = .ok b) :
    (b.diagnostics = u.placed.filterMap fun p =>
        (b.env.shadowed? p.1 p.2.name).map fun outer =>
          { code := "W0006"
            severity := .warning
            message := "`" ++ p.2.name ++ "` shadows a declaration in an outer scope"
            span := p.2.span
            notes := [{ message := "previous declaration is here", span := some outer.span }] }) ∧
      (∀ s : ScopeId, s.index.toNat ≤ u.scopes.length →
        ∃ outer, u.Chain s.index.toNat (s.index.toNat :: outer) ∧
          ∀ name, b.env.shadowed? s name = u.nearest outer name) ∧
      (∀ d ∈ u.declarations, b.env.shadowed? ⟨0⟩ d.name = none) ∧
      ∀ w ∈ b.diagnostics, w.isError = false := by
  obtain ⟨rfl, hu⟩ := eq_described_of_build hn h
  have hwarnings := filterMap_placed hn
  refine ⟨hwarnings.symm, fun s hs => ?_, fun d _ => shadowed?_root u d.name, fun w hw => ?_⟩
  · obtain ⟨outer, hchain⟩ := hu.exists_chain hs
    exact ⟨outer, hchain, hu.shadowed?_eq_nearest hchain⟩
  · rw [← hwarnings, List.mem_filterMap] at hw
    obtain ⟨p, -, hp⟩ := hw
    obtain ⟨outer, -, rfl⟩ := Option.map_eq_some_iff.1 hp
    rfl

/-- Three nested declarations of `x` give two warnings, each with a note at the next one outwards.
A scope beside them that declares `y` gives none. -/
theorem build_diagnostics_nested :
    let x (line : UInt64) : Declaration :=
      { span := { startLine := line }, name := "x", kind := .var default }
    let y : Declaration := { name := "y", kind := .var default }
    let u : CompilationUnit Unit :=
      { declarations := [x 1], scopes := [⟨⟨0⟩, [x 2]⟩, ⟨⟨0⟩, [y]⟩, ⟨⟨1⟩, [x 3]⟩] }
    ∃ b, u.scopes.length < 2 ^ 32 ∧ u.build = .ok b ∧
      b.diagnostics.map (fun w => (w.code, w.span, w.notes.map Note.span)) =
        [("W0006", { startLine := 2 }, [some { startLine := 1 }]),
          ("W0006", { startLine := 3 }, [some { startLine := 2 }])] := by
  intro x y u
  have hb : u.build = .ok u.described := build_eq_described (by decide) (by decide)
  have hwarnings := (build_diagnostics u u.described (by decide) hb).1
  exact ⟨u.described, by decide, hb, (congrArg _ hwarnings).trans (by decide +kernel)⟩

end CompilationUnit

end UnitCheck
