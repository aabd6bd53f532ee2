import UnitCheck.Proofs.Environment.Reachable
import UnitCheck.Proofs.Unit.Walk

/-!
# Building a unit as calls

`CompilationUnit.calls` lists the calls by which building fills an environment.  A unit that is
built has the environment that these calls lead to, and a warning for each of them that hid
something at the time it was made (`Environment.shadowing`).  This holds however many scopes there
are, also where their numbers no longer fit and a scope is filled that an earlier one has filled
already; with it, whatever holds of all environments that can be reached holds of the one of a unit
(`valid_env_of_build`).

`Building.Made` is what is true between two calls, and each of `declare` and `addScope` keeps it.
-/

set_option autoImplicit false

namespace UnitCheck

/-! ## What calls hide -/

namespace Environment

variable {env grown : Environment}

/-- The declaration that a call makes and the one in the scopes around that it hides. -/
def shadows? (env : Environment) : Call → Option (Declaration × Declaration)
  | .child _ => none
  | .declare s d => (env.shadowed? s d.name).map fun outer => (d, outer)

/-- The declarations that calls make and that hide another one at that time, each with the one that
it hides. -/
def shadowing (env : Environment) : List Call → List (Declaration × Declaration)
  | [] => []
  | call :: calls => (env.shadows? call).toList ++ (env.after call).shadowing calls

theorem shadowing_append (env : Environment) (calls more : List Call) :
    env.shadowing (calls ++ more) =
      env.shadowing calls ++ (calls.foldl after env).shadowing more := by
  induction calls generalizing env with
  | nil => rfl
  | cons call calls ih => rw [List.cons_append, shadowing, shadowing, ih, List.append_assoc]; rfl

theorem ofCalls_concat (calls : List Call) (call : Call) :
    ofCalls (calls ++ [call]) = (ofCalls calls).after call := by
  rw [ofCalls, ofCalls, List.foldl_append]
  rfl

theorem shadowing_concat (calls : List Call) (call : Call) :
    new.shadowing (calls ++ [call]) =
      new.shadowing calls ++ ((ofCalls calls).shadows? call).toList := by
  rw [shadowing_append, shadowing, shadowing, List.append_nil]
  rfl

end Environment

/-! ## Building step by step -/

namespace Building

/-- These calls have been made, and `n` of them have opened a scope. -/
structure Made (b : Building) (n : Nat) (calls : List Environment.Call) : Prop where
  env : b.env = Environment.ofCalls calls
  count : b.env.count = n + 1
  warnings : b.warnings = (Environment.new.shadowing calls).map fun p => shadowWarning p.1 p.2

variable {b b' : Building} {n : Nat} {calls : List Environment.Call}

theorem made_nil : ({} : Building).Made 0 [] := ⟨rfl, rfl, rfl⟩

theorem Made.declare (h : b.Made n calls) {s : ScopeId} {d : Declaration}
    (hd : b.declare s d = .ok b') : b'.Made n (calls ++ [.declare s d]) := by
  obtain ⟨grown, hgrown, hb'⟩ := exists_of_bind_eq_ok hd
  cases hb'
  refine ⟨?_, (Environment.count_declare hgrown).trans h.count, ?_⟩
  · rw [Environment.ofCalls_concat, ← h.env, Environment.after_declare hgrown]
  · rw [Environment.shadowing_concat, List.map_append, ← h.warnings, ← h.env, Environment.shadows?]
    cases b.env.shadowed? s d.name <;> rfl

theorem Made.declareAll (h : b.Made n calls) {s : ScopeId} {ds : List Declaration}
    (hds : ds.foldlM (Building.declare s) b = .ok b') :
    b'.Made n (calls ++ ds.map (.declare s)) := by
  induction ds generalizing b calls with
  | nil =>
    cases hds
    rwa [List.map_nil, List.append_nil]
  | cons d ds ih =>
    rw [List.foldlM_cons] at hds
    obtain ⟨next, hnext, hrest⟩ := exists_of_bind_eq_ok hds
    have hmade := ih (h.declare hnext) hrest
    rwa [List.append_assoc] at hmade

/-- The calls for the nested scope at position `i`. -/
def callsFor (spec : ScopeSpec) (i : Nat) : List Environment.Call :=
  .child spec.parent :: spec.declarations.map (.declare ⟨(i + 1).toUInt32⟩)

theorem Made.addScope (h : b.Made n calls) {spec : ScopeSpec} (hspec : b.addScope spec = .ok b') :
    b'.Made (n + 1) (calls ++ callsFor spec n) := by
  obtain ⟨⟨s, grown⟩, hgrown, hds⟩ := exists_of_bind_eq_ok hspec
  obtain ⟨-, rfl, -⟩ := Environment.child_eq_ok_iff.1 hgrown
  have hopened : Made { b with env := grown } (n + 1) (calls ++ [.child spec.parent]) := by
    refine ⟨?_, ?_, ?_⟩
    · rw [Environment.ofCalls_concat, ← h.env, Environment.after_child hgrown]
    · rw [Environment.count_child hgrown, h.count]
    · rw [Environment.shadowing_concat, Environment.shadows?, Option.toList_none, List.append_nil]
      exact h.warnings
  have hmade := hopened.declareAll hds
  rwa [List.append_assoc, h.count] at hmade

theorem Made.addScopes (h : b.Made n calls) {specs : List ScopeSpec}
    (hspecs : specs.foldlM Building.addScope b = .ok b') :
    b'.Made (n + specs.length)
      (calls ++ (specs.zipIdx n).flatMap fun p => callsFor p.1 p.2) := by
  induction specs generalizing b calls n with
  | nil =>
    cases hspecs
    rwa [List.zipIdx_nil, List.flatMap_nil, List.append_nil]
  | cons spec specs ih =>
    rw [List.foldlM_cons] at hspecs
    obtain ⟨next, hnext, hrest⟩ := exists_of_bind_eq_ok hspecs
    have hmade := ih (h.addScope hnext) hrest
    rw [List.append_assoc, Nat.add_assoc, Nat.add_comm 1] at hmade
    rwa [List.zipIdx_cons, List.flatMap_cons, List.length_cons]

end Building

/-! ## Built units -/

namespace CompilationUnit

variable {ι : Type} {u : CompilationUnit ι} {b : BuiltUnit ι}

/-- The calls that building a unit makes, in the order of the document. -/
def calls (u : CompilationUnit ι) : List Environment.Call :=
  u.declarations.map (.declare ⟨0⟩) ++
    u.scopes.zipIdx.flatMap fun p => Building.callsFor p.1 p.2

/-- **A unit that is built has made all its calls**, and all its expressions are in scopes. -/
theorem made_of_build (h : u.build = .ok b) :
    Building.Made ⟨b.env, b.diagnostics⟩ u.scopes.length u.calls ∧
      b.exprs = u.entries.map (fun e => e.expr.bind e.scope) ∧
      ∀ e ∈ u.entries, b.env.contains e.scope = true := by
  obtain ⟨root, hroot, hrest⟩ := exists_of_bind_eq_ok h
  obtain ⟨all, hall, hrest⟩ := exists_of_bind_eq_ok hrest
  obtain ⟨exprs, hexprs, hb⟩ := exists_of_bind_eq_ok hrest
  cases hb
  have hmade := (Building.made_nil.declareAll hroot).addScopes hall
  rw [Nat.zero_add] at hmade
  rw [BuildStep.mapM_bound all.env hmade.count, BuildStep.outcome_eq_ok_iff] at hexprs
  refine ⟨hmade, hexprs.2.symm, fun e he => ?_⟩
  have hplace := hexprs.1 _ (List.mem_map_of_mem he)
  rw [BuildStep.violation?] at hplace
  rw [Environment.contains, hmade.count, decide_eq_true_eq]
  split at hplace
  · cases hplace
  · omega

theorem valid_env_of_build (h : u.build = .ok b) : b.env.Valid := by
  have henv : b.env = Environment.ofCalls u.calls := (made_of_build h).1.env
  rw [henv]
  exact Environment.valid_ofCalls u.calls

end CompilationUnit

end UnitCheck
