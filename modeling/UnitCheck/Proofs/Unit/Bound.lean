import UnitCheck.Proofs.Document.Unbound
import UnitCheck.Proofs.Resolve.Names
import UnitCheck.Proofs.Unit.Report

/-!
# Built units are bound

A unit goes from its text to its results without ever meeting a node that is bound to nothing, or to
a scope that is not there.  Reading binds no node (`CompilationUnit.unbound_of_parse`), building
looks for the scope of each entry before it binds all nodes of the entry to it
(`CompilationUnit.made_of_build`), and no query gets into an environment
(`CompilationUnit.valid_env_of_build`).  What is left for a name that is not resolved is stated in
`CompilationUnit.parse_build_bound`.
-/

set_option autoImplicit false

namespace UnitCheck

namespace CompilationUnit

variable {ι : Type} {u : CompilationUnit ι} {b : BuiltUnit ι}

/-- Expressions without bound nodes are bound to the scopes of their entries, which exist. -/
theorem forall₂_scope_of_build (hunbound : ∀ e ∈ u.entries, e.expr.Unbound)
    (h : u.build = .ok b) :
    List.Forall₂ (fun entry bound => b.env.contains entry.scope = true ∧
      ∀ x : Expr ι, x.Within bound → x.scope = some entry.scope) u.entries b.exprs := by
  obtain ⟨-, hexprs, hcontains⟩ := made_of_build h
  rw [hexprs, List.forall₂_map_right_iff, List.forall₂_same]
  exact fun entry hentry =>
    ⟨hcontains entry hentry, fun x hx => (hunbound entry hentry).scope_of_within_bind hx⟩

/-- **A unit that is read and built is bound throughout.**  Every node of its expressions, at any
depth, is bound to the scope of the entry, and the environment has that scope.  So whether checking
stops at a failure or not, a name that is not resolved is never one of an unbound node: no scope in
sight declares it, or it is declared as the name of a type. -/
theorem parse_build_bound (text path : String) (u : CompilationUnit (Option NodeId))
    (b : BuiltUnit (Option NodeId)) (hparse : parse text path = some u) (hbuild : u.build = .ok b) :
    List.Forall₂ (fun entry bound => b.env.contains entry.scope = true ∧
        ∀ x : Expr (Option NodeId), x.Within bound → x.scope = some entry.scope)
      u.entries b.exprs ∧
    ∀ (failFast : Bool) (name : String) (span : Span) (cause : NameFailure),
      .error (.unresolvedName name span cause) ∈ (b.check failFast).results →
        cause ≠ .unbound ∧ (cause = .undeclared ∨ cause = .declaredAs "type name") := by
  have hunbound := unbound_of_parse hparse
  refine ⟨forall₂_scope_of_build hunbound hbuild, fun failFast name span cause hr => ?_⟩
  obtain ⟨e, he, htype⟩ := BuiltUnit.exists_of_mem_results hr
  rw [(made_of_build hbuild).2.1] at he
  obtain ⟨entry, hentry, rfl⟩ := List.mem_map.1 he
  have hcause := Expr.cause_of_unresolvedName (valid_env_of_build hbuild)
    ((hunbound entry hentry).scope_head_bind entry.scope) htype
  refine ⟨?_, hcause⟩
  rcases hcause with rfl | rfl
  · simp
  · simp

/-- A call of the name of a type, in a nested scope.  The document gives the call a scope `7`, which
is passed over. -/
theorem parse_build_bound_call :
    let text := "[\"\",null,[\x7b\"name\":\"T\",\"kind\":2,\"ty\":[0,\"\"]\x7d],[[]]," ++
      "[[1,\x7b\"type\":\"Call\",\"scope\":7,\"receiver\":[2,0,[],\"T\"]\x7d]]]"
    ∃ u b, parse text "a" = some u ∧ u.build = .ok b ∧
      List.Forall₂ (fun entry bound => b.env.contains entry.scope = true ∧
          ∀ x : Expr (Option NodeId), x.Within bound → x.scope = some entry.scope)
        u.entries b.exprs ∧
      u.entries.map Entry.scope = [⟨1⟩] ∧
      (b.check false).results = [.error (.unresolvedName "T" {} (.declaredAs "type name"))] := by
  intro text
  have hrun : ((parse text "a").bind fun u => u.build.toOption.map fun b =>
      (u.entries.map Entry.scope, (b.check false).results)) =
        some ([⟨1⟩], [.error (.unresolvedName "T" {} (.declaredAs "type name"))]) := by
    decide +kernel
  obtain ⟨u, hu, hrun⟩ := Option.bind_eq_some_iff.1 hrun
  obtain ⟨b, hb, hrun⟩ := Option.map_eq_some_iff.1 hrun
  have hbuild := eq_ok_of_toOption hb
  rw [Prod.mk.injEq] at hrun
  exact ⟨u, b, hu, hbuild, (parse_build_bound text "a" u b hu hbuild).1, hrun⟩

end CompilationUnit

end UnitCheck
