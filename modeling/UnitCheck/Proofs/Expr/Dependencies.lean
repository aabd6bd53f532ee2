import UnitCheck.Proofs.Expr.Path

/-!
# Where dependencies come from

The dependencies of an expression are the names that occur in it outside of everything that is
called.  Where a name occurs is told by its path, and which of two names comes first by the step at
which their paths part, so that `Expr.dependencies_occurrences` needs no recursion over the tree to
say which names are listed, in which order and how often.

The proofs go through `Expr.children`, the nodes right below a node from left to right: what holds
of an expression whenever it holds of its children holds of all expressions (`child_induction`).
-/

set_option autoImplicit false

namespace UnitCheck

variable {ι κ : Type}

namespace Expr

/-! ## From left to right -/

/-- The place of a step among the steps from the same node. -/
def Step.place : Step → Nat
  | .receiver => 0
  | .arg i => i + 1
  | .body i => i

/-- The first path parts from the second one to the left of it. -/
inductive Path.LeftOf : Path → Path → Prop
  | here {a b : Step} (h : a.place < b.place) (p q : Path) : LeftOf (a :: p) (b :: q)
  | deeper (a : Step) {p q : Path} (h : LeftOf p q) : LeftOf (a :: p) (a :: q)

theorem Path.LeftOf.asymm {p q : Path} (h : p.LeftOf q) : ¬ q.LeftOf p := by
  induction h with
  | here h p q =>
    intro h'
    rcases h' with ⟨h', -, -⟩ | ⟨_, _⟩
    · exact Nat.lt_asymm h h'
    · exact Nat.lt_irrefl _ h
  | deeper a _ ih =>
    intro h'
    rcases h' with ⟨h', -, -⟩ | ⟨-, h'⟩
    · exact Nat.lt_irrefl _ h'
    · exact ih h'

/-- A name in an expression, with the path to it. -/
structure Occurrence (ι : Type) where
  path : Path
  site : Site ι
  name : String

namespace Occurrence

/-- The occurrence as it is seen from one step higher up. -/
def under (a : Step) (o : Occurrence ι) : Occurrence ι := { o with path := a :: o.path }

/-- Nothing that contains the name is called. -/
def Uncalled (o : Occurrence ι) : Prop := Step.receiver ∉ o.path

instance (o : Occurrence ι) : Decidable o.Uncalled :=
  inferInstanceAs (Decidable (Step.receiver ∉ o.path))

/-- The name as something to be looked for. -/
def query (o : Occurrence ι) : Declaration :=
  { span := o.site.span, name := o.name, kind := .query }

@[simp] theorem query_under (a : Step) (o : Occurrence ι) : (o.under a).query = o.query := rfl

theorem uncalled_under_iff {a : Step} {o : Occurrence ι} :
    (o.under a).Uncalled ↔ a ≠ .receiver ∧ o.Uncalled := by
  simp [Uncalled, under, eq_comm]

end Occurrence

/-- A list of all names in an expression from left to right. -/
structure Enumerates (e : Expr ι) (os : List (Occurrence ι)) : Prop where
  pairwise : os.Pairwise fun o o' => o.path.LeftOf o'.path
  mem_iff : ∀ o : Occurrence ι, o ∈ os ↔ e.at? o.path = some (.ident o.site o.name)

namespace Enumerates

variable {e : Expr ι} {os os' : List (Occurrence ι)}

theorem nodup (h : e.Enumerates os) : os.Nodup :=
  h.pairwise.imp fun {o o'} hlt (heq : o = o') => by
    rw [heq] at hlt
    exact hlt.asymm hlt

/-- There is only one such list. -/
theorem unique (h : e.Enumerates os) (h' : e.Enumerates os') : os = os' := by
  have hperm : os.Perm os' := (List.perm_ext_iff_of_nodup h.nodup h'.nodup).2 fun o =>
    (h.mem_iff o).trans (h'.mem_iff o).symm
  refine hperm.eq_of_pairwise (fun o o' _ _ hlt hgt => ?_) h.pairwise h'.pairwise
  exact absurd hgt hlt.asymm

end Enumerates

end Expr

/-! ## The nodes right below a node -/

theorem Stmt.exprs_eq (stmt : Stmt ι) : stmt.exprs = [] ∨ ∃ e, stmt.exprs = [e] := by
  cases stmt with
  | bind id span name ty value => cases value <;> simp [Stmt.exprs]
  | eval id span expr => simp [Stmt.exprs]
  | ret id span value => cases value <;> simp [Stmt.exprs]

theorem Stmt.mem_exprs_iff {stmt : Stmt ι} {e : Expr ι} :
    e ∈ stmt.exprs ↔ stmt.exprs.head? = some e := by
  rcases stmt.exprs_eq with h | ⟨e', h⟩ <;> simp [h, eq_comm]

theorem Stmt.sizeOf_lt_of_mem_exprs {stmt : Stmt ι} {e : Expr ι} (h : e ∈ stmt.exprs) :
    sizeOf e < sizeOf stmt := by
  cases stmt with
  | bind id span name ty value =>
    obtain rfl : value = some e := by simpa [Stmt.exprs] using h
    rw [Stmt.bind.sizeOf_spec, Option.some.sizeOf_spec]
    omega
  | eval id span expr =>
    obtain rfl : e = expr := by simpa [Stmt.exprs] using h
    rw [Stmt.eval.sizeOf_spec]
    omega
  | ret id span value =>
    obtain rfl : value = some e := by simpa [Stmt.exprs] using h
    rw [Stmt.ret.sizeOf_spec, Option.some.sizeOf_spec]
    omega

namespace Expr

/-- The nodes right below a node, from left to right, each with the step that leads to it. -/
def children : Expr ι → List (Step × Expr ι)
  | .literal _ _ => []
  | .ident _ _ => []
  | .lambda _ body => body.zipIdx.flatMap fun s => s.1.exprs.map fun e => (.body s.2, e)
  | .call _ receiver args => (.receiver, receiver) :: args.zipIdx.map fun a => (.arg a.2, a.1)

theorem mem_children_iff {e c : Expr ι} {a : Step} :
    (a, c) ∈ e.children ↔ e.child? a = some c := by
  cases e with
  | literal site value => simp [children, child?]
  | ident site name => simp [children, child?]
  | call site receiver args =>
    cases a with
    | receiver => simp [children, child?, eq_comm]
    | arg i => simp [children, child?, List.mem_zipIdx_iff_getElem?]
    | body i => simp [children, child?]
  | lambda site body =>
    cases a with
    | receiver => simp [children, child?]
    | arg i => simp [children, child?]
    | body i =>
      simp [children, child?, List.mem_zipIdx_iff_getElem?, Option.bind_eq_some_iff,
        Stmt.mem_exprs_iff]

theorem pairwise_snd_zipIdx {α : Type} (as : List α) :
    as.zipIdx.Pairwise fun x y => x.2 < y.2 := by
  rw [← List.pairwise_map (R := fun i j : Nat => i < j), List.zipIdx_map_snd]
  exact List.pairwise_lt_range'

theorem pairwise_children (e : Expr ι) :
    e.children.Pairwise fun x y => x.1.place < y.1.place := by
  cases e with
  | literal site value => exact .nil
  | ident site name => exact .nil
  | call site receiver args =>
    rw [children, List.pairwise_cons, List.pairwise_map]
    refine ⟨?_, (pairwise_snd_zipIdx args).imp fun h => Nat.succ_lt_succ h⟩
    intro x hx
    obtain ⟨a, -, rfl⟩ := List.mem_map.1 hx
    exact Nat.succ_pos a.2
  | lambda site body =>
    rw [children, List.pairwise_flatMap]
    refine ⟨fun s _ => ?_, (pairwise_snd_zipIdx body).imp fun h x hx y hy => ?_⟩
    · rcases s.1.exprs_eq with hs | ⟨e, hs⟩ <;> simp [hs]
    · obtain ⟨_, -, rfl⟩ := List.mem_map.1 hx
      obtain ⟨_, -, rfl⟩ := List.mem_map.1 hy
      exact h

theorem sizeOf_lt_of_child? {e c : Expr ι} {a : Step} (h : e.child? a = some c) :
    sizeOf c < sizeOf e := by
  cases e with
  | literal site value => cases h
  | ident site name => cases h
  | call site receiver args =>
    cases a with
    | receiver =>
      cases h
      rw [Expr.call.sizeOf_spec]
      omega
    | arg i =>
      have := List.sizeOf_lt_of_mem (List.mem_of_getElem? h)
      rw [Expr.call.sizeOf_spec]
      omega
    | body i => cases h
  | lambda site body =>
    cases a with
    | receiver => cases h
    | arg i => cases h
    | body i =>
      obtain ⟨stmt, hstmt, hc⟩ := Option.bind_eq_some_iff.1 h
      have := List.sizeOf_lt_of_mem (List.mem_of_getElem? hstmt)
      have := Stmt.sizeOf_lt_of_mem_exprs (Stmt.mem_exprs_iff.2 hc)
      rw [Expr.lambda.sizeOf_spec]
      omega

/-- What holds of an expression if it holds of the nodes right below it holds of all expressions. -/
theorem child_induction {P : Expr ι → Prop}
    (h : ∀ e, (∀ x ∈ e.children, P x.2) → P e) (e : Expr ι) : P e :=
  h e fun _ hx =>
    have := sizeOf_lt_of_child? (mem_children_iff.1 hx)
    child_induction h _
termination_by sizeOf e

/-! ## All names -/

/-- The name at the root, if there is one. -/
def ownName : Expr ι → List (Occurrence ι)
  | .ident site name => [⟨[], site, name⟩]
  | _ => []

theorem mem_ownName_iff {e : Expr ι} {o : Occurrence ι} :
    o ∈ e.ownName ↔ o.path = [] ∧ e = .ident o.site o.name := by
  obtain ⟨path, site, name⟩ := o
  cases e <;> simp [ownName, eq_comm]

/-- All names in an expression, from left to right. -/
def names (e : Expr ι) : List (Occurrence ι) :=
  e.ownName ++ e.children.attach.flatMap fun x => x.1.2.names.map (Occurrence.under x.1.1)
termination_by sizeOf e
decreasing_by exact sizeOf_lt_of_child? (mem_children_iff.1 x.2)

theorem names_eq (e : Expr ι) :
    e.names = e.ownName ++ e.children.flatMap fun x => x.2.names.map (Occurrence.under x.1) := by
  rw [names, List.flatMap_def, List.flatMap_def]
  exact congrArg (fun os => e.ownName ++ os.flatten)
    (List.attach_map_val (f := fun x : Step × Expr ι => x.2.names.map (Occurrence.under x.1)))

theorem mem_names_iff (e : Expr ι) (o : Occurrence ι) :
    o ∈ e.names ↔ e.at? o.path = some (.ident o.site o.name) := by
  induction e using child_induction generalizing o with
  | h e ih =>
    rw [names_eq, List.mem_append, mem_ownName_iff, List.mem_flatMap]
    obtain ⟨path, site, name⟩ := o
    cases path with
    | nil => simp [Occurrence.under]
    | cons a p =>
      rw [at?_cons, Option.bind_eq_some_iff]
      constructor
      · rintro (⟨hpath, -⟩ | ⟨⟨b, c⟩, hc, ho⟩)
        · cases hpath
        · obtain ⟨o, hmem, heq⟩ := List.mem_map.1 ho
          cases heq
          exact ⟨c, mem_children_iff.1 hc, (ih _ hc o).1 hmem⟩
      · rintro ⟨c, hc, hat⟩
        have hc := mem_children_iff.2 hc
        exact .inr ⟨(a, c), hc, List.mem_map.2 ⟨⟨p, site, name⟩, (ih _ hc _).2 hat, rfl⟩⟩

theorem pairwise_names (e : Expr ι) :
    e.names.Pairwise fun o o' => o.path.LeftOf o'.path := by
  induction e using child_induction with
  | h e ih =>
    have hbelow : (e.children.flatMap fun x => x.2.names.map (Occurrence.under x.1)).Pairwise
        fun o o' => o.path.LeftOf o'.path := by
      rw [List.pairwise_flatMap]
      refine ⟨fun x hx => ?_, (pairwise_children e).imp fun h o ho o' ho' => ?_⟩
      · rw [List.pairwise_map]
        exact (ih x hx).imp fun h => .deeper x.1 h
      · obtain ⟨o, -, rfl⟩ := List.mem_map.1 ho
        obtain ⟨o', -, rfl⟩ := List.mem_map.1 ho'
        exact .here h o.path o'.path
    rw [names_eq]
    -- only a name has something at its root, and a name has no children
    cases e with
    | ident site name => simp [ownName, children]
    | literal | lambda | call => exact hbelow

theorem enumerates_names (e : Expr ι) : e.Enumerates e.names :=
  ⟨pairwise_names e, mem_names_iff e⟩

/-! ## Dependencies -/

theorem dependenciesAll_eq_flatMap (es : List (Expr ι)) :
    dependenciesAll es = es.flatMap dependencies := by
  induction es with
  | nil => rfl
  | cons e es ih => rw [dependenciesAll, ih, List.flatMap_cons]

end Expr

theorem Stmt.dependencies_eq_flatMap (stmt : Stmt ι) :
    stmt.dependencies = stmt.exprs.flatMap Expr.dependencies := by
  cases stmt with
  | bind id span name ty value =>
    cases value <;> simp [dependencies, exprs, Expr.dependenciesOption]
  | eval id span expr => simp [dependencies, exprs]
  | ret id span value => cases value <;> simp [dependencies, exprs, Expr.dependenciesOption]

theorem Stmt.dependenciesAll_eq_flatMap (stmts : List (Stmt ι)) :
    dependenciesAll stmts = stmts.flatMap dependencies := by
  induction stmts with
  | nil => rfl
  | cons stmt stmts ih => rw [dependenciesAll, ih, List.flatMap_cons]

namespace Expr

theorem flatMap_zipIdx {α β : Type} (as : List α) (f : α → List β) :
    (as.zipIdx.flatMap fun a => f a.1) = as.flatMap f := by
  conv_rhs => rw [← List.zipIdx_map_fst 0 as, List.flatMap_map]

/-- A name depends on itself, and other expressions depend on what the nodes right below them
depend on, except for what they call. -/
theorem dependencies_eq (e : Expr ι) :
    e.dependencies = e.ownName.map Occurrence.query ++
      e.children.flatMap fun x => if x.1 = .receiver then [] else x.2.dependencies := by
  cases e with
  | literal site value => rfl
  | ident site name => rfl
  | call site receiver args =>
    simp [dependencies, ownName, children, dependenciesAll_eq_flatMap, List.flatMap_map,
      flatMap_zipIdx]
  | lambda site body =>
    simp [dependencies, ownName, children, Stmt.dependenciesAll_eq_flatMap, List.flatMap_assoc,
      List.flatMap_map, ← Stmt.dependencies_eq_flatMap, flatMap_zipIdx]

/-- Of all names those count that are not called and are in nothing that is called. -/
theorem dependencies_names (e : Expr ι) :
    e.dependencies = (e.names.filter fun o => o.Uncalled).map Occurrence.query := by
  induction e using child_induction with
  | h e ih =>
    rw [dependencies_eq, names_eq, List.filter_append, List.map_append]
    congr 1
    · cases e <;> rfl
    · rw [List.filter_flatMap, List.map_flatMap]
      refine List.flatMap_congr fun x hx => ?_
      rw [List.filter_map]
      split
      · rename_i ha
        simp [Function.comp_def, Occurrence.uncalled_under_iff, ha]
      · rename_i ha
        rw [ih x hx]
        simp [Function.comp_def, Occurrence.uncalled_under_iff, ha]

/-! ## What does not matter -/

/-- The expression without its ids and scopes. -/
def bare (e : Expr ι) : Expr Unit := e.map (fun _ => ()) fun _ => none

theorem children_map (f : ι → κ) (g : Option ScopeId → Option ScopeId) (e : Expr ι) :
    (e.map f g).children = e.children.map fun x => (x.1, x.2.map f g) := by
  cases e with
  | literal site value => rfl
  | ident site name => rfl
  | call site receiver args =>
    simp [Expr.map, children, mapAll_eq_map, List.zipIdx_map]
  | lambda site body =>
    simp [Expr.map, children, Stmt.mapAll_eq_map, List.zipIdx_map, List.map_flatMap,
      List.flatMap_map, Stmt.exprs_map, Function.comp_def]

theorem dependencies_map (f : ι → κ) (g : Option ScopeId → Option ScopeId) (e : Expr ι) :
    (e.map f g).dependencies = e.dependencies := by
  induction e using child_induction with
  | h e ih =>
    rw [dependencies_eq, dependencies_eq e, children_map, List.flatMap_map]
    congr 1
    · cases e <;> rfl
    · exact List.flatMap_congr fun x hx => by rw [ih x hx]

/-- **Dependencies are the names outside of what is called.**  All names in the expression can be
listed from left to right, as their paths are ordered.  The dependencies are the names of that list
whose paths do not lead into anything that is called, each with its own span and as often as it
occurs.  Names that a body binds are among them.  Ids and scopes do not matter, so binding has no
effect on dependencies. -/
theorem dependencies_occurrences (e : Expr ι) :
    (∃ os, e.Enumerates os) ∧
    (∀ os, e.Enumerates os →
      e.dependencies = (os.filter fun o => o.Uncalled).map Occurrence.query) ∧
    (∀ (κ : Type) (e' : Expr κ), e'.bare = e.bare → e'.dependencies = e.dependencies) ∧
    ∀ s : ScopeId, (e.bind s).dependencies = e.dependencies := by
  have hnames := enumerates_names e
  refine ⟨⟨e.names, hnames⟩, fun os hos => ?_, fun κ e' h => ?_, fun s => dependencies_map _ _ e⟩
  · rw [hos.unique hnames]
    exact dependencies_names e
  · calc e'.dependencies
        _ = e'.bare.dependencies := (dependencies_map _ _ e').symm
        _ = e.bare.dependencies := by rw [h]
        _ = e.dependencies := dependencies_map _ _ e

end Expr

end UnitCheck
