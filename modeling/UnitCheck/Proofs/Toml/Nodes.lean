import UnitCheck.Toml.Basic

/-!
# What is where in a table

`Table.node?` says what is at the end of a path of keys in a table, with the origin of the tables
and the order of their entries left out.  A path does not lead into an array, and neither into an
array of tables.

What a statement adds to a table is a list of branches (`Branch`), each a path with something at its
end and tables all the way.  Every operation on tables has the same effect (`Effect`): the table
gains the branches, below the place that the operation was meant for, unless that place is inside
an array of tables, where nobody sees them.
-/

set_option autoImplicit false

namespace UnitCheck

namespace Toml

/-! ## Nodes -/

/-- What can be at a place of a table.  Of an array no more than its length counts. -/
inductive Node where
  | scalar (s : Scalar)
  | array (length : Nat)
  | table
  /-- An array of tables that headers have made. -/
  | tables
deriving DecidableEq

def Value.node : Value → Node
  | .scalar s => .scalar s
  | .array items => .array items.length
  | .table _ _ => .table
  | .tables _ _ => .tables

/-- The value at the end of a path of keys. -/
def Value.at? : Value → List String → Option Value
  | v, [] => some v
  | .table _ entries, key :: path => (entries.lookup key).bind fun v => v.at? path
  | _, _ :: _ => none

def Value.node? (v : Value) (path : List String) : Option Node := (v.at? path).map Value.node

def Table.at? (t : Table) : List String → Option Value := (Value.table .header t).at?

/-- What is at the end of a path of keys. -/
def Table.node? (t : Table) (path : List String) : Option Node := (t.at? path).map Value.node

/-- What is at the places of a table, or of a value. -/
abbrev View : Type := List String → Option Node

/-- What is behind a place. -/
def behind (place : List String) (f : View) : View := fun path => f (place ++ path)

/-- A path with something at its end. -/
structure Branch where
  path : List String
  node : Node

namespace Branch

/-- What a branch has at a place: its own node at its end, and a table at any place before. -/
def node? (b : Branch) (path : List String) : Option Node :=
  if path = b.path then some b.node else if path.isPrefixOf b.path then some .table else none

/-- The branch moved down to a place. -/
def below (place : List String) (b : Branch) : Branch := ⟨place ++ b.path, b.node⟩

end Branch

/-- One of the branches has the node at the place. -/
def Shown (bs : List Branch) (path : List String) (n : Node) : Prop :=
  ∃ b ∈ bs, b.node? path = some n

section

variable {t : Table} {v : Value} {key : String} {path : List String} {n : Node}

@[simp]
theorem Table.node?_nil (t : Table) : t.node? [] = some .table := rfl

theorem Table.node?_cons (t : Table) (key : String) (path : List String) :
    t.node? (key :: path) = (t.lookup key).bind fun v => v.node? path := by
  rw [node?, at?, Value.at?]
  cases t.lookup key <;> rfl

theorem Table.node?_key (t : Table) (key : String) :
    t.node? [key] = (t.lookup key).map Value.node := by
  rw [node?_cons]
  cases t.lookup key <;> rfl

theorem Table.node?_of_lookup (h : t.lookup key = some v) (path : List String) :
    t.node? (key :: path) = v.node? path := by
  rw [node?_cons, h, Option.bind_some]

@[simp]
theorem Value.node?_nil (v : Value) : v.node? [] = some v.node := rfl

@[simp]
theorem Value.node?_table (origin : Origin) (t : Table) :
    (Value.table origin t).node? = t.node? := by
  funext path
  cases path <;> rfl

theorem Value.node?_tables (last last' : Table) (before before' : List Table) :
    (Value.tables last before).node? = (Value.tables last' before').node? := by
  funext path
  cases path <;> rfl

/-- There is nothing inside a value that is no table. -/
theorem Value.node?_of_node_ne (h : v.node ≠ .table) :
    v.node? path = some n ↔ path = [] ∧ n = v.node := by
  cases path with
  | nil => simp [eq_comm]
  | cons key path =>
    cases v with
    | table => exact absurd rfl h
    | scalar | array | tables => simp [node?, at?]

theorem Table.node?_empty (path : List String) (n : Node) :
    Table.node? [] path = some n ↔ path = [] ∧ n = .table := by
  cases path with
  | nil => simp [eq_comm]
  | cons key path => simp [node?_cons]

theorem Value.at?_append (v : Value) (path path' : List String) :
    v.at? (path ++ path') = (v.at? path).bind fun inner => inner.at? path' := by
  induction path generalizing v with
  | nil => rfl
  | cons key path ih =>
    cases v with
    | table origin entries =>
      rw [List.cons_append, Value.at?, Value.at?]
      cases entries.lookup key with
      | none => rfl
      | some inner => exact ih inner
    | scalar | array | tables => rfl

theorem Table.at?_of_lookup (h : t.lookup key = some v) : t.at? [key] = some v := by
  rw [at?, Value.at?, h]
  rfl

theorem Table.behind_of_at? (h : t.at? path = some v) : behind path t.node? = v.node? := by
  funext path'
  rw [behind, node?, at?, Value.at?_append, ← at?, h]
  rfl

end

/-! ## Branches -/

section

variable {b : Branch} {bs bs' : List Branch} {path place : List String} {n : Node}

theorem Branch.node?_eq_tables (h : b.node? path = some .tables) :
    path = b.path ∧ b.node = .tables := by
  rw [node?] at h
  split at h
  · exact ⟨‹_›, Option.some.inj h⟩
  · split at h <;> simp at h

theorem Branch.map_below_nil (bs : List Branch) : bs.map (below []) = bs :=
  List.map_id bs

@[simp]
theorem Branch.node?_below_cons_nil (key : String) (place : List String) (b : Branch) :
    (b.below (key :: place)).node? [] = some .table := by
  simp [node?, below]

theorem Branch.node?_below_cons_cons (key key' : String) (place path : List String) (b : Branch) :
    (b.below (key :: place)).node? (key' :: path) =
      if key' = key then (b.below place).node? path else none := by
  by_cases hkey : key' = key
  · subst hkey
    simp [node?, below]
  · simp [node?, below, hkey]

@[simp]
theorem not_shown_nil : ¬Shown [] path n := by simp [Shown]

theorem shown_append : Shown (bs ++ bs') path n ↔ Shown bs path n ∨ Shown bs' path n := by
  simp [Shown, or_and_right, exists_or]

theorem shown_single (m : Node) : Shown [⟨[], m⟩] path n ↔ path = [] ∧ n = m := by
  cases path with
  | nil => simp [Shown, Branch.node?, eq_comm (a := n)]
  | cons key path => simp [Shown, Branch.node?]

theorem shown_map_below :
    Shown (bs.map (Branch.below place)) path n ↔ ∃ b ∈ bs, (b.below place).node? path = some n := by
  constructor
  · rintro ⟨_, hmem, hn⟩
    obtain ⟨b, hb, rfl⟩ := List.mem_map.1 hmem
    exact ⟨b, hb, hn⟩
  · rintro ⟨b, hb, hn⟩
    exact ⟨_, List.mem_map_of_mem hb, hn⟩

theorem shown_below_nil (key : String) (hbs : bs ≠ []) :
    Shown (bs.map (Branch.below (key :: place))) [] n ↔ n = .table := by
  have hexists := List.exists_mem_of_ne_nil bs hbs
  rw [shown_map_below]
  simp only [Branch.node?_below_cons_nil, Option.some.injEq, exists_and_right, hexists, true_and,
    eq_comm]

theorem shown_below_cons (key key' : String) :
    Shown (bs.map (Branch.below (key :: place))) (key' :: path) n ↔
      key' = key ∧ Shown (bs.map (Branch.below place)) path n := by
  rw [shown_map_below, shown_map_below]
  by_cases hkey : key' = key
  · simp [Branch.node?_below_cons_cons, hkey]
  · simp [Branch.node?_below_cons_cons, hkey]

end

/-! ## What is gained -/

/-- The second view has what the first one has and the branches. -/
def Gains (f g : View) (bs : List Branch) : Prop :=
  ∀ path n, g path = some n ↔ f path = some n ∨ Shown bs path n

/-- The place is inside an array of tables. -/
def Hides (f : View) (place : List String) : Prop :=
  ∃ above key rest, place = above ++ key :: rest ∧ f above = some .tables

/-- The branches are put at a place, where nobody sees them if it is inside an array of tables. -/
structure Effect (f g : View) (place : List String) (bs : List Branch) : Prop where
  hidden : Hides f place → g = f
  shown : ¬Hides f place → Gains f g (bs.map (Branch.below place))

/-- Nothing is anywhere. -/
def nowhere : View := fun _ => none

section

variable {f g k : View} {bs bs' : List Branch} {place : List String}

theorem Gains.trans (h : Gains f g bs) (h' : Gains g k bs') : Gains f k (bs ++ bs') := by
  intro path n
  rw [h' path n, h path n, shown_append, or_assoc]

theorem gains_self_of_forall (h : ∀ path n, Shown bs path n → f path = some n) : Gains f f bs :=
  fun path n => ⟨.inl, fun hn => hn.elim id (h path n)⟩

theorem gains_of_node_ne {v : Value} (h : v.node ≠ .table) :
    Gains nowhere v.node? [⟨[], v.node⟩] := by
  intro path n
  rw [Value.node?_of_node_ne h, shown_single]
  simp [nowhere]

theorem gains_empty : Gains nowhere (Table.node? []) [⟨[], .table⟩] := by
  intro path n
  rw [Table.node?_empty, shown_single]
  simp [nowhere]

theorem not_hides_nil : ¬Hides f [] := by
  rintro ⟨above, key, rest, h, -⟩
  simp at h

theorem not_hides_nowhere : ¬Hides nowhere place := by
  rintro ⟨above, key, rest, -, h⟩
  exact absurd h (by simp [nowhere])

theorem Gains.hides_iff (h : Gains f g bs) :
    Hides g place ↔ Hides f place ∨
      ∃ b ∈ bs, b.node = .tables ∧ ∃ key rest, place = b.path ++ key :: rest := by
  constructor
  · rintro ⟨above, key, rest, hplace, hnode⟩
    rcases (h above .tables).1 hnode with hf | ⟨b, hb, hbranch⟩
    · exact .inl ⟨above, key, rest, hplace, hf⟩
    · obtain ⟨rfl, hbnode⟩ := Branch.node?_eq_tables hbranch
      exact .inr ⟨b, hb, hbnode, key, rest, hplace⟩
  · rintro (⟨above, key, rest, hplace, hf⟩ | ⟨b, hb, hbnode, key, rest, hplace⟩)
    · exact ⟨above, key, rest, hplace, (h above .tables).2 (.inl hf)⟩
    · exact ⟨b.path, key, rest, hplace,
        (h b.path .tables).2 (.inr ⟨b, hb, by rw [Branch.node?, if_pos rfl, hbnode]⟩)⟩

theorem effect_nil (h : Gains f g bs) : Effect f g [] bs :=
  ⟨fun hides => absurd hides not_hides_nil, fun _ => by rwa [Branch.map_below_nil]⟩

/-- What an empty table gains is there in full. -/
theorem Effect.of_empty {t : Table} (h : Effect (Table.node? []) t.node? place bs)
    (hplace : place ≠ []) (hbs : bs ≠ []) : Effect nowhere t.node? place bs := by
  have hhides : ¬Hides (Table.node? []) place := by
    rintro ⟨above, key, rest, -, htables⟩
    simp [Table.node?_empty] at htables
  obtain ⟨key, place, rfl⟩ := List.exists_cons_of_ne_nil hplace
  refine ⟨fun hides => absurd hides not_hides_nowhere, fun _ path n => ?_⟩
  rw [h.shown hhides path n, Table.node?_empty]
  constructor
  · rintro (⟨rfl, rfl⟩ | hshown)
    · exact .inr ((shown_below_nil key hbs).2 rfl)
    · exact .inr hshown
  · rintro (hnone | hshown)
    · exact absurd hnone (by simp [nowhere])
    · exact .inr hshown

end

/-! ## One key -/

namespace Table

section

variable {t : Table} {key : String} {v v' : Value} {bs : List Branch} {place : List String}

theorem lookup_append_single (h : t.lookup key = none) (v : Value) (k : String) :
    (t ++ [(key, v)]).lookup k = if k = key then some v else t.lookup k := by
  rw [List.lookup_append, List.lookup_cons, List.lookup_nil]
  by_cases hk : k = key
  · subst hk
    simp [h]
  · rw [if_neg hk, beq_false_of_ne hk, Option.or_none]

theorem lookup_single (key : String) (v : Value) (k : String) :
    List.lookup k [(key, v)] = if k = key then some v else none :=
  lookup_append_single List.lookup_nil v k

theorem lookup_replace (t : Table) (key : String) (v : Value) (k : String) :
    (t.replace key v).lookup k = if k = key then (t.lookup key).map fun _ => v else t.lookup k := by
  induction t with
  | nil => simp [replace]
  | cons e t ih =>
    obtain ⟨key', v'⟩ := e
    have hcons : replace ((key', v') :: t) key v =
        (if key' == key then (key, v) else (key', v')) :: replace t key v := rfl
    by_cases hkey : key' = key
    · subst hkey
      by_cases hk : k = key'
      · simp [hcons, hk]
      · simp [hcons, List.lookup_cons, hk, ih, beq_false_of_ne hk]
    · by_cases hk : k = key'
      · simp [hcons, hk, hkey]
      · simp [hcons, List.lookup_cons, hkey, ih, beq_false_of_ne hk, beq_false_of_ne (Ne.symm hkey)]

theorem hides_cons_of_lookup (h : t.lookup key = some v) :
    Hides t.node? (key :: place) ↔ Hides v.node? place := by
  constructor
  · rintro ⟨above, k, rest, hplace, htables⟩
    cases above with
    | nil => simp at htables
    | cons key' above =>
      obtain ⟨rfl, rfl⟩ := List.cons.inj hplace
      exact ⟨above, k, rest, rfl, by rwa [node?_of_lookup h] at htables⟩
  · rintro ⟨above, k, rest, rfl, htables⟩
    exact ⟨key :: above, k, rest, rfl, by rwa [node?_of_lookup h]⟩

theorem not_hides_cons_of_lookup (h : t.lookup key = none) : ¬Hides t.node? (key :: place) := by
  rintro ⟨above, k, rest, hplace, htables⟩
  cases above with
  | nil => simp at htables
  | cons key' above =>
    obtain ⟨rfl, -⟩ := List.cons.inj hplace
    simp [node?_cons, h] at htables

/-- A new key has what its value has. -/
theorem effect_append (h : t.lookup key = none) (hbs : bs ≠ [])
    (hv : Effect nowhere v.node? place bs) :
    Effect t.node? (t ++ [(key, v)] : Table).node? (key :: place) bs := by
  refine ⟨fun hides => absurd hides (not_hides_cons_of_lookup h), fun _ path n => ?_⟩
  cases path with
  | nil => simp [shown_below_nil key hbs, eq_comm]
  | cons k path =>
    rw [node?_cons, node?_cons, lookup_append_single h, shown_below_cons]
    by_cases hk : k = key
    · subst hk
      have hgains := hv.shown not_hides_nowhere path n
      simpa [h, nowhere] using hgains
    · simp [hk]

/-- A key gains what its value gains. -/
theorem effect_replace (h : t.lookup key = some v) (hbs : bs ≠ [])
    (hv : Effect v.node? v'.node? place bs) :
    Effect t.node? (t.replace key v').node? (key :: place) bs := by
  constructor
  · intro hides
    have hsame := hv.hidden ((hides_cons_of_lookup h).1 hides)
    funext path
    cases path with
    | nil => rfl
    | cons k path =>
      rw [node?_cons, node?_cons, lookup_replace]
      by_cases hk : k = key
      · subst hk
        simp [h, hsame]
      · simp [hk]
  · intro hides path n
    have hgains := hv.shown (mt (hides_cons_of_lookup h).2 hides)
    cases path with
    | nil => simp [shown_below_nil key hbs, eq_comm]
    | cons k path =>
      rw [node?_cons, node?_cons, lookup_replace, shown_below_cons]
      by_cases hk : k = key
      · subst hk
        simpa [h] using hgains path n
      · simp [hk]

end

/-! ## Operations -/

/-- A table is changed at one key, by a change to the table behind that key. -/
inductive Descends (key : String) (change : Table → Option Table) (t : Table) : Table → Prop where
  | made {inner : Table} (origin : Origin) (hnone : t.lookup key = none)
    (hchange : change [] = some inner) : Descends key change t (t ++ [(key, .table origin inner)])
  | table {origin : Origin} {inner inner' : Table}
    (hsome : t.lookup key = some (.table origin inner)) (hchange : change inner = some inner') :
    Descends key change t (t.replace key (.table origin inner'))
  | tables {last last' : Table} {before : List Table}
    (hsome : t.lookup key = some (.tables last before)) (hchange : change last = some last') :
    Descends key change t (t.replace key (.tables last' before))

section

variable {t t' : Table} {key : String} {v : Value} {path place : List String} {bs : List Branch}
  {change : Table → Option Table}

theorem descends_insert {p : String} (h : insert (p :: path) key v t = some t') :
    Descends p (insert path key v) t t' := by
  rw [insert] at h
  split at h
  · rename_i hnone
    obtain ⟨inner, hinner, h⟩ := Option.bind_eq_some_iff.1 h
    obtain rfl := Option.some.inj h
    exact .made .dotted hnone hinner
  · rename_i inner hsome
    obtain ⟨inner', hinner, h⟩ := Option.bind_eq_some_iff.1 h
    obtain rfl := Option.some.inj h
    exact .table hsome hinner
  · rename_i inner hsome
    split at h
    · simp at h
    · obtain ⟨inner', hinner, h⟩ := Option.bind_eq_some_iff.1 h
      obtain rfl := Option.some.inj h
      exact .table hsome hinner
  · rename_i last before hsome
    split at h
    · simp at h
    · obtain ⟨last', hlast, h⟩ := Option.bind_eq_some_iff.1 h
      obtain rfl := Option.some.inj h
      exact .tables hsome hlast
  · simp at h

theorem descends_changeAt {p : String} (h : changeAt t (p :: path) change = some t') :
    Descends p (fun inner => changeAt inner path change) t t' := by
  rw [changeAt] at h
  split at h
  · rename_i hnone
    obtain ⟨inner, hinner, h⟩ := Option.bind_eq_some_iff.1 h
    obtain rfl := Option.some.inj h
    exact .made .implied hnone hinner
  · simp at h
  · rename_i origin inner _ hsome
    obtain ⟨inner', hinner, h⟩ := Option.bind_eq_some_iff.1 h
    obtain rfl := Option.some.inj h
    exact .table hsome hinner
  · rename_i last before hsome
    obtain ⟨last', hlast, h⟩ := Option.bind_eq_some_iff.1 h
    obtain rfl := Option.some.inj h
    exact .tables hsome hlast
  · simp at h

theorem Descends.effect (h : Descends key change t t')
    (hchange : ∀ inner inner', change inner = some inner' →
      Effect inner.node? inner'.node? place bs)
    (hplace : place ≠ []) (hbs : bs ≠ []) : Effect t.node? t'.node? (key :: place) bs := by
  cases h with
  | made origin hnone h =>
    refine effect_append hnone hbs ?_
    rw [Value.node?_table]
    exact (hchange _ _ h).of_empty hplace hbs
  | table hsome h =>
    refine effect_replace hsome hbs ?_
    rw [Value.node?_table, Value.node?_table]
    exact hchange _ _ h
  | tables hsome h =>
    -- the path goes on behind an array of tables, so that the place is hidden
    obtain ⟨k, place, rfl⟩ := List.exists_cons_of_ne_nil hplace
    refine effect_replace hsome hbs ⟨fun _ => Value.node?_tables .., fun hides => ?_⟩
    exact absurd ⟨[], k, place, rfl, rfl⟩ hides

theorem effect_insert (hv : Gains nowhere v.node? bs) (hbs : bs ≠ [])
    (h : insert path key v t = some t') : Effect t.node? t'.node? (path ++ [key]) bs := by
  induction path generalizing t t' with
  | nil =>
    rw [insert, addNew] at h
    split at h
    · simp at h
    · rename_i hnone
      obtain rfl := Option.some.inj h
      exact effect_append (Option.not_isSome_iff_eq_none.1 hnone) hbs (effect_nil hv)
  | cons p path ih => exact (descends_insert h).effect (fun _ _ => ih) (by simp) hbs

theorem effect_changeAt (hplace : place ≠ []) (hbs : bs ≠ [])
    (hchange : ∀ inner inner', change inner = some inner' →
      Effect inner.node? inner'.node? place bs)
    (h : changeAt t path change = some t') : Effect t.node? t'.node? (path ++ place) bs := by
  induction path generalizing t t' with
  | nil => exact hchange t t' h
  | cons p path ih => exact (descends_changeAt h).effect (fun _ _ => ih) (by simp [hplace]) hbs

theorem effect_openTable (h : openTable key t = some t') :
    Effect t.node? t'.node? [key] [⟨[], .table⟩] := by
  rw [openTable] at h
  split at h
  · rename_i hnone
    obtain rfl := Option.some.inj h
    refine effect_append hnone (by simp) (effect_nil ?_)
    rw [Value.node?_table]
    exact gains_empty
  · rename_i inner hsome
    obtain rfl := Option.some.inj h
    refine effect_replace hsome (by simp) (effect_nil ?_)
    rw [Value.node?_table, Value.node?_table]
    refine gains_self_of_forall fun path n hshown => ?_
    obtain ⟨rfl, rfl⟩ := (shown_single _).1 hshown
    rfl
  · simp at h

theorem effect_appendTable (h : appendTable key t = some t') :
    Effect t.node? t'.node? [key] [⟨[], .tables⟩] := by
  rw [appendTable] at h
  split at h
  · rename_i hnone
    obtain rfl := Option.some.inj h
    exact effect_append hnone (by simp) (effect_nil (gains_of_node_ne (by simp [Value.node])))
  · rename_i last before hsome
    obtain rfl := Option.some.inj h
    refine effect_replace hsome (by simp) (effect_nil ?_)
    rw [Value.node?_tables [] last _ before]
    refine gains_self_of_forall fun path n hshown => ?_
    obtain ⟨rfl, rfl⟩ := (shown_single _).1 hshown
    rfl
  · simp at h

end

end Table

end Toml

end UnitCheck
