import UnitCheck.Proofs.Environment
import UnitCheck.Unit.Build

/-!
# Building a unit as a walk through its document

`CompilationUnit.walk` lists what building a unit does, in the order of the document: the root's
declarations, then for each nested scope its parent and its declarations, then the entries.  Every
step of it carries the part of the document that decides whether the step is refused
(`BuildStep.violation?`), so nothing in the walk depends on a state.

`build_eq` is the whole of building in one equation: the first violation of the walk if there is
one, and otherwise scopes, expressions and warnings that are written down from the document.  The
loops are taken one at a time (`foldlM_declare`, `foldlM_addScope`, `mapM_bound`), and
`outcome_bind` joins them.
-/

set_option autoImplicit false

namespace UnitCheck

open Environment (ofList)

/-! ## The walk -/

/-- Something that building a unit does. -/
inductive BuildStep where
  /-- Put a declaration into a scope that has the earlier ones of its list. -/
  | declare (earlier : List Declaration) (d : Declaration)
  /-- Open the scope at position `i` of the list of nested scopes. -/
  | enter (i : Nat) (parent : ScopeId)
  /-- Bind an expression of a unit with `n` nested scopes. -/
  | place (n : Nat) (scope : ScopeId)

namespace BuildStep

/-- Why a step is refused, if it is. -/
def violation? : BuildStep → Option ScopeError
  | .declare earlier d =>
    if d.isQuery then some (.queryDeclaration d.name)
    else (earlier.find? fun e => e.name == d.name).map fun e => .duplicate d.name d.span e.span
  | .enter i parent => if i < parent.index.toNat then some (.unknownScope parent) else none
  | .place n scope => if n < scope.index.toNat then some (.unknownScope scope) else none

/-- The steps for a list of declarations, some of which have been made. -/
def declareAll (earlier : List Declaration) : List Declaration → List BuildStep
  | [] => []
  | d :: rest => .declare earlier d :: declareAll (earlier ++ [d]) rest

/-- The steps for the nested scopes from position `i` on. -/
def enterAll (i : Nat) : List ScopeSpec → List BuildStep
  | [] => []
  | spec :: rest =>
    .enter i spec.parent :: (declareAll [] spec.declarations ++ enterAll (i + 1) rest)

/-- The first violation among the steps, or a value if there is none. -/
def outcome {α : Type} (steps : List BuildStep) (a : α) : Except ScopeError α :=
  match steps.findSome? violation? with
  | some e => .error e
  | none => .ok a

end BuildStep

namespace CompilationUnit

/-- All steps of building a unit, in the order of its document. -/
def walk {ι : Type} (u : CompilationUnit ι) : List BuildStep :=
  BuildStep.declareAll [] u.declarations ++
    (BuildStep.enterAll 0 u.scopes ++ u.entries.map fun e => .place u.scopes.length e.scope)

end CompilationUnit

/-- The scope that a document describes. -/
def ScopeSpec.toScope (spec : ScopeSpec) : Scope := ⟨some spec.parent, spec.declarations.reverse⟩

namespace BuildStep

/-! ## Outcomes -/

section

variable {α β : Type} {steps rest : List BuildStep} {a : α}

@[simp] theorem outcome_nil (a : α) : outcome [] a = .ok a := rfl

theorem outcome_of_violation {step : BuildStep} {e : ScopeError} (h : step.violation? = some e) :
    outcome (step :: rest) a = .error e := by
  rw [outcome, List.findSome?_cons, h]

theorem outcome_of_none {step : BuildStep} (h : step.violation? = none) :
    outcome (step :: rest) a = outcome rest a := by
  rw [outcome, outcome, List.findSome?_cons, h]

/-- Work that goes on after the steps is refused first by them, then by its own steps. -/
theorem outcome_bind {f : α → Except ScopeError β} {b : β}
    (h : steps.findSome? violation? = none → f a = outcome rest b) :
    (outcome steps a >>= f) = outcome (steps ++ rest) b := by
  cases hv : steps.findSome? violation? with
  | none =>
    simp only [outcome, List.findSome?_append, hv, Option.none_or]
    exact h hv
  | some e =>
    simp only [outcome, List.findSome?_append, hv, Option.some_or]
    rfl

theorem outcome_bind_pure (f : α → β) :
    (outcome steps a >>= fun x => pure (f x)) = outcome steps (f a) := by
  have h : (outcome steps a >>= fun x => pure (f x)) = outcome (steps ++ []) (f a) :=
    outcome_bind fun _ => rfl
  rwa [List.append_nil] at h

theorem outcome_eq_error_iff {e : ScopeError} :
    outcome steps a = .error e ↔ steps.findSome? violation? = some e := by
  cases hv : steps.findSome? violation? with
  | none => simp [outcome, hv]
  | some _ => simp [outcome, hv]

theorem outcome_eq_ok_iff {b : α} :
    outcome steps a = .ok b ↔ (∀ step ∈ steps, step.violation? = none) ∧ a = b := by
  rw [← List.findSome?_eq_none_iff]
  cases hv : steps.findSome? violation? with
  | none => simp [outcome, hv]
  | some _ => simp [outcome, hv]

end

/-! ## Declaring -/

/-- Names that occur once are found in a list from either end. -/
theorem get?_reverse {ds : List Declaration} (hnodup : (ds.map Declaration.name).Nodup)
    (parent : Option ScopeId) (name : String) :
    (Scope.mk parent ds.reverse).get? name = ds.find? fun d => d.name == name := by
  rw [Scope.get?]
  induction ds with
  | nil => rfl
  | cons d ds ih =>
    rw [List.map_cons, List.nodup_cons] at hnodup
    rw [List.reverse_cons, List.find?_append, ih hnodup.2, List.find?_cons]
    by_cases hd : d.name = name
    · have hnone : (ds.find? fun e => e.name == name) = none := by
        rw [List.find?_eq_none]
        intro e he hname
        refine hnodup.1 (List.mem_map.2 ⟨e, he, ?_⟩)
        rw [eq_of_beq hname, hd]
      simp [hnone, hd]
    · have hbeq : (d.name == name) = false := beq_false_of_ne hd
      simp [hbeq]

theorem nodup_of_violation?_eq_none {earlier : List Declaration} {d : Declaration}
    (hnodup : (earlier.map Declaration.name).Nodup)
    (h : violation? (.declare earlier d) = none) :
    ((earlier ++ [d]).map Declaration.name).Nodup := by
  have hfind : (earlier.find? fun e => e.name == d.name) = none := by
    rw [violation?] at h
    split at h
    · cases h
    · exact Option.map_eq_none_iff.1 h
  rw [List.find?_eq_none] at hfind
  rw [List.map_append, List.nodup_append]
  refine ⟨hnodup, by simp, fun n hn m hm hnm => ?_⟩
  obtain ⟨e, he, rfl⟩ := List.mem_map.1 hn
  rw [List.map_singleton, List.mem_singleton] at hm
  exact hfind e he (by rw [hnm, hm, beq_self_eq_true])

/-- The warning about a declaration in a scope with the given parent, if it hides another one. -/
def warning? (env : Environment) (parent : Option ScopeId) (d : Declaration) : Option Diagnostic :=
  (parent.bind fun p => env.find? p d.name).map (Building.shadowWarning d)

/-- What is hidden by the last scope is found without it. -/
theorem shadowed?_ofList {scopes : List Scope} (scope : Scope) {s : ScopeId}
    (hs : s.index.toNat = scopes.length)
    (hp : ∀ p, scope.parent = some p → p.index.toNat < scopes.length) (name : String) :
    (ofList (scopes ++ [scope])).shadowed? s name =
      scope.parent.bind fun p => (ofList scopes).find? p name := by
  have hparent : (ofList (scopes ++ [scope])).parent s = scope.parent := by
    rw [Environment.parent, Environment.scope?_ofList, hs, List.getElem?_concat_length]
    rfl
  rw [Environment.shadowed?, hparent]
  cases h : scope.parent with
  | none => rfl
  | some p => exact Environment.find?_append [scope] (hp p h) name

theorem declare_eq {scopes : List Scope} {parent : Option ScopeId} {earlier : List Declaration}
    {s : ScopeId} (hs : s.index.toNat = scopes.length)
    (hp : ∀ p, parent = some p → p.index.toNat < scopes.length)
    (hnodup : (earlier.map Declaration.name).Nodup) (warnings : List Diagnostic)
    (d : Declaration) :
    Building.declare s ⟨ofList (scopes ++ [⟨parent, earlier.reverse⟩]), warnings⟩ d =
      outcome [.declare earlier d]
        ⟨ofList (scopes ++ [⟨parent, (earlier ++ [d]).reverse⟩]),
          warnings ++ (warning? (ofList scopes) parent d).toList⟩ := by
  have hwarning := shadowed?_ofList ⟨parent, earlier.reverse⟩ hs hp d.name
  rw [Building.declare, hwarning]
  cases hquery : d.isQuery with
  | true =>
    have hv : violation? (.declare earlier d) = some (.queryDeclaration d.name) := by
      rw [violation?, if_pos hquery]
    rw [outcome_of_violation hv, Environment.declare_query _ _ hquery]
    rfl
  | false =>
    rw [Environment.declare_ofList _ hs hquery, get?_reverse hnodup]
    cases hfind : earlier.find? fun e => e.name == d.name with
    | some previous =>
      have hv : violation? (.declare earlier d) =
          some (.duplicate d.name d.span previous.span) := by
        rw [violation?, hquery, hfind]
        rfl
      rw [outcome_of_violation hv]
      rfl
    | none =>
      have hv : violation? (.declare earlier d) = none := by
        rw [violation?, hquery, hfind]
        rfl
      rw [outcome_of_none hv, List.reverse_append]
      rfl

/-- A list of declarations that goes into the last scope. -/
theorem foldlM_declare (scopes : List Scope) (parent : Option ScopeId)
    (earlier : List Declaration) {s : ScopeId} (hs : s.index.toNat = scopes.length)
    (hp : ∀ p, parent = some p → p.index.toNat < scopes.length)
    (hnodup : (earlier.map Declaration.name).Nodup) (warnings : List Diagnostic)
    (ds : List Declaration) :
    ds.foldlM (Building.declare s) ⟨ofList (scopes ++ [⟨parent, earlier.reverse⟩]), warnings⟩ =
      outcome (declareAll earlier ds)
        ⟨ofList (scopes ++ [⟨parent, (earlier ++ ds).reverse⟩]),
          warnings ++ ds.filterMap (warning? (ofList scopes) parent)⟩ := by
  induction ds generalizing earlier warnings with
  | nil => simp [declareAll, pure, Except.pure]
  | cons d ds ih =>
    rw [List.foldlM_cons, declare_eq hs hp hnodup]
    refine outcome_bind fun hv => ?_
    have hnodup' : ((earlier ++ [d]).map Declaration.name).Nodup :=
      nodup_of_violation?_eq_none hnodup (by simpa using hv)
    rw [ih _ hnodup']
    cases hw : warning? (ofList scopes) parent d with
    | none => simp [hw]
    | some w => simp [hw]

/-! ## Opening scopes -/

theorem warning?_append {scopes : List Scope} (later : List Scope) {p : ScopeId}
    (hp : p.index.toNat < scopes.length) :
    warning? (ofList (scopes ++ later)) (some p) = warning? (ofList scopes) (some p) := by
  funext d
  rw [warning?, warning?, Option.bind_some, Option.bind_some, Environment.find?_append later hp]

theorem addScope_eq {scopes : List Scope} {i : Nat} (hi : scopes.length = i + 1)
    (hlt : i + 1 < 2 ^ 32) (warnings : List Diagnostic) (spec : ScopeSpec) :
    Building.addScope ⟨ofList scopes, warnings⟩ spec =
      outcome (.enter i spec.parent :: declareAll [] spec.declarations)
        ⟨ofList (scopes ++ [spec.toScope]),
          warnings ++
            spec.declarations.filterMap (warning? (ofList scopes) (some spec.parent))⟩ := by
  rw [Building.addScope, Environment.child_ofList]
  split
  · rename_i hparent
    have hs : (ScopeId.mk scopes.length.toUInt32).index.toNat = scopes.length :=
      Environment.toNat_toUInt32 (by omega)
    have hv : violation? (.enter i spec.parent) = none := by
      rw [violation?, if_neg (by omega)]
    rw [outcome_of_none hv]
    exact foldlM_declare scopes (some spec.parent) [] hs (by simpa using hparent) List.nodup_nil
      warnings spec.declarations
  · rename_i hparent
    have hv : violation? (.enter i spec.parent) = some (.unknownScope spec.parent) := by
      rw [violation?, if_pos (by omega)]
    rw [outcome_of_violation hv]
    rfl

theorem parent_lt_of_violation?_eq_none {i : Nat} {parent : ScopeId} {steps : List BuildStep}
    (h : (BuildStep.enter i parent :: steps).findSome? violation? = none) :
    parent.index.toNat < i + 1 := by
  have hv : violation? (.enter i parent) = none := by
    rw [List.findSome?_eq_none_iff] at h
    exact h _ (by simp)
  rw [violation?] at hv
  split at hv
  · cases hv
  · omega

/-- A list of nested scopes.  The warnings, given one scope at a time, are those of the scopes as
they are in the end: a scope's parents are complete when it is opened. -/
theorem foldlM_addScope (scopes : List Scope) {i : Nat} (hi : scopes.length = i + 1)
    (warnings : List Diagnostic) (specs : List ScopeSpec) (hlt : i + specs.length < 2 ^ 32) :
    specs.foldlM Building.addScope ⟨ofList scopes, warnings⟩ =
      outcome (enterAll i specs)
        ⟨ofList (scopes ++ specs.map ScopeSpec.toScope),
          warnings ++ specs.flatMap fun spec =>
            spec.declarations.filterMap
              (warning? (ofList (scopes ++ specs.map ScopeSpec.toScope)) (some spec.parent))⟩ := by
  induction specs generalizing scopes i warnings with
  | nil => simp [enterAll, pure, Except.pure]
  | cons spec specs ih =>
    rw [List.length_cons] at hlt
    rw [List.foldlM_cons, addScope_eq hi (by omega), enterAll, ← List.cons_append]
    refine outcome_bind fun hv => ?_
    have hp : spec.parent.index.toNat < scopes.length := by
      rw [hi]
      exact parent_lt_of_violation?_eq_none hv
    rw [ih _ (i := i + 1) (by simp [hi]) _ (by omega), List.append_assoc, List.append_assoc,
      List.map_cons, List.flatMap_cons, warning?_append _ hp, List.singleton_append]

/-! ## Binding -/

theorem mapM_bound {ι : Type} (env : Environment) {n : Nat} (hcount : env.count = n + 1)
    (entries : List (Entry ι)) :
    entries.mapM (Entry.bound env) =
      outcome (entries.map fun e => .place n e.scope)
        (entries.map fun e => e.expr.bind e.scope) := by
  induction entries with
  | nil => rfl
  | cons e entries ih =>
    have hcontains : env.contains e.scope = decide (e.scope.index.toNat ≤ n) := by
      rw [Environment.contains, hcount]
      exact decide_eq_decide.2 Nat.lt_succ_iff
    rw [List.mapM_cons, ih, Entry.bound, hcontains, List.map_cons, List.map_cons]
    by_cases hle : e.scope.index.toNat ≤ n
    · have hv : violation? (.place n e.scope) = none := by
        rw [violation?, if_neg (by omega)]
      rw [outcome_of_none hv]
      simp only [hle, decide_true, if_true]
      exact outcome_bind_pure fun exprs => e.expr.bind e.scope :: exprs
    · have hv : violation? (.place n e.scope) = some (.unknownScope e.scope) := by
        rw [violation?, if_pos (by omega)]
      rw [outcome_of_violation hv]
      simp only [hle, decide_false, Bool.false_eq_true, if_false]
      rfl

end BuildStep

/-! ## Building -/

namespace CompilationUnit

variable {ι : Type}

/-- The scopes that a document describes. -/
def scopeList (u : CompilationUnit ι) : List Scope :=
  ⟨none, u.declarations.reverse⟩ :: u.scopes.map ScopeSpec.toScope

/-- The unit that a document describes. -/
def described (u : CompilationUnit ι) : BuiltUnit ι where
  file := u.file
  source := u.source
  env := ofList u.scopeList
  exprs := u.entries.map fun e => e.expr.bind e.scope
  diagnostics := u.scopes.flatMap fun spec =>
    spec.declarations.filterMap (BuildStep.warning? (ofList u.scopeList) (some spec.parent))

/-- **Building a unit** gives the first violation of the walk, or the unit that the document
describes if there is none. -/
theorem build_eq {u : CompilationUnit ι} (hn : u.scopes.length < 2 ^ 32) :
    u.build = BuildStep.outcome u.walk u.described := by
  have hroot := BuildStep.foldlM_declare [] none [] (s := Environment.root) rfl nofun
    List.nodup_nil [] u.declarations
  have hwarnings : u.declarations.filterMap (BuildStep.warning? (ofList []) none) = [] := by
    rw [List.filterMap_eq_nil_iff]
    exact fun _ _ => rfl
  have hscopes := BuildStep.foldlM_addScope [⟨none, u.declarations.reverse⟩] (i := 0)
    rfl [] u.scopes (by omega)
  have hentries := BuildStep.mapM_bound (ofList u.scopeList) (n := u.scopes.length)
    (by simp [scopeList]) u.entries
  rw [hwarnings] at hroot
  rw [build, walk]
  refine (congrArg (· >>= _) hroot).trans (BuildStep.outcome_bind fun _ => ?_)
  refine (congrArg (· >>= _) hscopes).trans (BuildStep.outcome_bind fun _ => ?_)
  refine (congrArg (· >>= _) hentries).trans ?_
  exact BuildStep.outcome_bind_pure fun exprs => { u.described with exprs := exprs }

/-- Without a violation the unit is the one that the document describes. -/
theorem build_eq_described {u : CompilationUnit ι} (hn : u.scopes.length < 2 ^ 32)
    (h : ∀ step ∈ u.walk, step.violation? = none) : u.build = .ok u.described := by
  rw [build_eq hn]
  exact BuildStep.outcome_eq_ok_iff.2 ⟨h, rfl⟩

/-- **Building reports exactly the first violation of the walk**: a unit is built if and only if no
step of the walk is refused, and otherwise the error is that of the first step that is. -/
theorem build_first_violation (u : CompilationUnit ι) (hn : u.scopes.length < 2 ^ 32) :
    ((∃ b, u.build = .ok b) ↔ ∀ step ∈ u.walk, step.violation? = none) ∧
      ∀ e, u.build = .error e ↔ u.walk.findSome? BuildStep.violation? = some e := by
  refine ⟨⟨?_, fun h => ⟨u.described, build_eq_described hn h⟩⟩, fun e => ?_⟩
  · rintro ⟨b, hb⟩
    rw [build_eq hn] at hb
    exact (BuildStep.outcome_eq_ok_iff.1 hb).1
  · rw [build_eq hn]
    exact BuildStep.outcome_eq_error_iff

/-- A name declared twice in the first nested scope comes before the unknown parent of the second
one and the unknown scope of an entry; the same name in the root is no violation. -/
theorem build_repeated_name :
    let x (line : UInt64) : Declaration :=
      { span := { startLine := line }, name := "x", kind := .var default }
    let u : CompilationUnit Unit :=
      { declarations := [x 1], scopes := [⟨⟨0⟩, [x 2, x 3]⟩, ⟨⟨7⟩, []⟩],
        entries := [⟨⟨9⟩, .ident { id := () } "x"⟩] }
    u.scopes.length < 2 ^ 32 ∧
      u.build = .error (.duplicate "x" { startLine := 3 } { startLine := 2 }) :=
  ⟨by decide, ((build_first_violation _ (by decide)).2 _).2 (by decide)⟩

end CompilationUnit

end UnitCheck
