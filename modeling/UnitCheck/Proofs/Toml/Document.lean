import UnitCheck.Proofs.Toml.Nodes
import UnitCheck.Toml.Parse

/-!
# The table that a document denotes

A document says of one place after the other what is there.  An entry is about the place of its key
below the header in front of it, and an inline table is about the places of its own keys below that;
a header is about the place of its key.  All that a document says put together is its table
(`Denotes`), and it is what reading the document builds (`denotes_of_parse`).

Nothing is said here of what is inside an array, and so neither of the tables in an array of tables.
-/

set_option autoImplicit false

namespace UnitCheck

namespace Toml

/-! ## What is written -/

def Key.parts (key : Key) : List String := key.path ++ [key.last]

mutual

/-- What is written as a value, as branches. -/
def Written.branches : Written → List Branch
  | .scalar s => [⟨[], .scalar s⟩]
  | .array items => [⟨[], .array items.length⟩]
  | .inline entries => ⟨[], .table⟩ :: Written.entryBranches entries

def Written.entryBranches : List (Key × Written) → List Branch
  | [] => []
  | (key, w) :: entries =>
    w.branches.map (Branch.below key.parts) ++ Written.entryBranches entries

end

namespace Statement

/-- The place that a statement is about, where entries go below the given place. -/
def place (above : List String) : Statement → List String
  | .entry key _ => above ++ key.parts
  | .table key => key.parts
  | .tables key => key.parts

/-- What a statement says of its place. -/
def branches : Statement → List Branch
  | .entry _ w => w.branches
  | .table _ => [⟨[], .table⟩]
  | .tables _ => [⟨[], .tables⟩]

/-- The place that entries go below from a statement on. -/
def next (above : List String) : Statement → List String
  | .entry _ _ => above
  | .table key => key.parts
  | .tables key => key.parts

/-- The places of the arrays of tables that a statement adds to. -/
def arrays : Statement → List (List String)
  | .tables key => [key.parts]
  | _ => []

end Statement

/-- Whether a place is inside one of the given places. -/
def inside (arrays : List (List String)) (place : List String) : Bool :=
  arrays.any fun a => a.isPrefixOf place && a != place

/-- What some statements say, where entries go below the given place and there are arrays of tables
at the given places. -/
def branchesFrom (arrays : List (List String)) (above : List String) :
    List Statement → List Branch
  | [] => []
  | s :: doc =>
    (if inside arrays (s.place above) then [] else s.branches.map (Branch.below (s.place above))) ++
      branchesFrom (s.arrays ++ arrays) (s.next above) doc

/-- What a document says. -/
def branches (doc : List Statement) : List Branch := ⟨[], .table⟩ :: branchesFrom [] [] doc

/-- The text is a document that says exactly what is in the table. -/
def Denotes (text : String) (t : Table) : Prop :=
  ∃ doc, statements text = some doc ∧
    ∀ path n, t.node? path = some n ↔ Shown (branches doc) path n

/-! ## Values -/

mutual

theorem Written.branches_ne_tables (w : Written) : ∀ b ∈ w.branches, b.node ≠ .tables := by
  cases w with
  | scalar s => simp [Written.branches]
  | array items => simp [Written.branches]
  | inline entries =>
    simpa [Written.branches] using Written.entryBranches_ne_tables entries

theorem Written.entryBranches_ne_tables (entries : List (Key × Written)) :
    ∀ b ∈ Written.entryBranches entries, b.node ≠ .tables := by
  cases entries with
  | nil => simp [Written.entryBranches]
  | cons e entries =>
    obtain ⟨key, w⟩ := e
    rw [Written.entryBranches, List.forall_mem_append, List.forall_mem_map]
    exact ⟨w.branches_ne_tables, Written.entryBranches_ne_tables entries⟩

end

theorem Written.branches_ne_nil (w : Written) : w.branches ≠ [] := by
  cases w <;> simp [Written.branches]

theorem Written.length_values {ws : List Written} {vs : List Value}
    (h : Written.values? ws = some vs) : vs.length = ws.length := by
  induction ws generalizing vs with
  | nil =>
    obtain rfl := Option.some.inj h
    rfl
  | cons w ws ih =>
    rw [Written.values?] at h
    obtain ⟨v, -, h⟩ := Option.bind_eq_some_iff.1 h
    obtain ⟨vs', hvs, h⟩ := Option.bind_eq_some_iff.1 h
    obtain rfl := Option.some.inj h
    rw [List.length_cons, List.length_cons, ih hvs]

mutual

/-- A value has what is written. -/
theorem Written.gains_value {w : Written} {v : Value} (h : w.value? = some v) :
    Gains nowhere v.node? w.branches := by
  cases w with
  | scalar s =>
    obtain rfl := Option.some.inj h
    exact gains_of_node_ne (by simp [Value.node])
  | array items =>
    obtain ⟨vs, hvs, rfl⟩ := Option.map_eq_some_iff.1 h
    rw [Written.branches, ← Written.length_values hvs]
    exact gains_of_node_ne (by simp [Value.node])
  | inline entries =>
    obtain ⟨t, ht, rfl⟩ := Option.map_eq_some_iff.1 h
    rw [Value.node?_table]
    refine gains_empty.trans (Written.gains_defineAll ht fun place => ?_)
    rw [gains_empty.hides_iff]
    simp [not_hides_nowhere]

theorem Written.gains_defineAll {entries : List (Key × Written)} {t t' : Table}
    (h : Written.defineAll entries t = some t') (hopen : ∀ place, ¬Hides t.node? place) :
    Gains t.node? t'.node? (Written.entryBranches entries) := by
  cases entries with
  | nil =>
    obtain rfl := Option.some.inj h
    exact gains_self_of_forall (by simp [Written.entryBranches])
  | cons e entries =>
    obtain ⟨key, w⟩ := e
    obtain ⟨v, hv, h⟩ := Option.bind_eq_some_iff.1 h
    obtain ⟨t₁, ht₁, h⟩ := Option.bind_eq_some_iff.1 h
    have hfirst :=
      (Table.effect_insert (Written.gains_value hv) w.branches_ne_nil ht₁).shown (hopen _)
    refine hfirst.trans (Written.gains_defineAll h fun place => ?_)
    rw [hfirst.hides_iff, not_or]
    refine ⟨hopen place, ?_⟩
    rintro ⟨_, hmem, htables, -⟩
    obtain ⟨b, hb, rfl⟩ := List.mem_map.1 hmem
    exact w.branches_ne_tables b hb htables

end

/-! ## Documents -/

theorem inside_iff {arrays : List (List String)} {place : List String} :
    inside arrays place = true ↔ ∃ a ∈ arrays, ∃ key rest, place = a ++ key :: rest := by
  have hproper (a : List String) :
      (a.isPrefixOf place && a != place) = true ↔ ∃ key rest, place = a ++ key :: rest := by
    rw [Bool.and_eq_true, List.isPrefixOf_iff_prefix, bne_iff_ne]
    constructor
    · rintro ⟨⟨more, rfl⟩, hne⟩
      cases more with
      | nil => simp at hne
      | cons key rest => exact ⟨key, rest, rfl⟩
    · rintro ⟨key, rest, rfl⟩
      exact ⟨List.prefix_append a _, by simp⟩
  simp only [inside, List.any_eq_true, hproper]

theorem inside_append (as bs : List (List String)) (place : List String) :
    inside (as ++ bs) place = true ↔ inside as place = true ∨ inside bs place = true := by
  rw [inside, List.any_append, Bool.or_eq_true, inside, inside]

theorem inside_trans {arrays : List (List String)} {place : List String} (key : String)
    (rest : List String) (h : inside arrays place = true) :
    inside arrays (place ++ key :: rest) = true := by
  obtain ⟨a, ha, key', rest', rfl⟩ := inside_iff.1 h
  exact inside_iff.2 ⟨a, ha, key', rest' ++ key :: rest, by simp⟩

namespace Statement

theorem eq_place_of_mem_arrays {s : Statement} {a : List String} (above : List String)
    (h : a ∈ s.arrays) : a = s.place above := by
  cases s with
  | entry | table => simp [arrays] at h
  | tables key => exact List.mem_singleton.1 h

/-- The branches of a statement have an array of tables where the statement adds to one. -/
theorem exists_tables_iff (s : Statement) (above place : List String) :
    (∃ b ∈ s.branches.map (Branch.below (s.place above)),
      b.node = .tables ∧ ∃ key rest, place = b.path ++ key :: rest) ↔
        inside s.arrays place = true := by
  rw [inside_iff]
  cases s with
  | entry key w =>
    refine ⟨?_, by simp [arrays]⟩
    rintro ⟨_, hmem, htables, -⟩
    obtain ⟨b, hb, rfl⟩ := List.mem_map.1 hmem
    exact absurd htables (w.branches_ne_tables b hb)
  | table key => simp [branches, arrays, Branch.below]
  | tables key => simp [branches, arrays, Branch.below, Statement.place]

end Statement

namespace Document

variable {d d' : Document} {s : Statement}

/-- What a statement does to the table of a document. -/
theorem effect_add (h : d.add s = some d') :
    Effect d.root.node? d'.root.node? (s.place d.current) s.branches ∧
      d'.current = s.next d.current := by
  cases s with
  | entry key w =>
    obtain ⟨v, hv, h⟩ := Option.bind_eq_some_iff.1 h
    obtain ⟨t, ht, h⟩ := Option.bind_eq_some_iff.1 h
    obtain rfl := Option.some.inj h
    refine ⟨Table.effect_changeAt (by simp [Key.parts]) w.branches_ne_nil (fun _ _ => ?_) ht, rfl⟩
    exact Table.effect_insert (Written.gains_value hv) w.branches_ne_nil
  | table key =>
    obtain ⟨t, ht, rfl⟩ := Option.map_eq_some_iff.1 h
    exact ⟨Table.effect_changeAt (by simp) (by simp [Statement.branches])
      (fun _ _ => Table.effect_openTable) ht, rfl⟩
  | tables key =>
    obtain ⟨t, ht, rfl⟩ := Option.map_eq_some_iff.1 h
    exact ⟨Table.effect_changeAt (by simp) (by simp [Statement.branches])
      (fun _ _ => Table.effect_appendTable) ht, rfl⟩

section

variable {arrays : List (List String)}
  (harrays : ∀ place, Hides d.root.node? place ↔ inside arrays place = true)

include harrays

/-- What a statement adds to what a document says. -/
theorem gains_add (h : d.add s = some d') :
    Gains d.root.node? d'.root.node?
      (if inside arrays (s.place d.current) then []
        else s.branches.map (Branch.below (s.place d.current))) := by
  have heffect := (effect_add h).1
  split
  · rename_i hinside
    rw [heffect.hidden ((harrays _).2 hinside)]
    exact gains_self_of_forall (by simp)
  · rename_i hinside
    exact heffect.shown (mt (harrays _).1 hinside)

/-- What a statement adds to the arrays of tables. -/
theorem hides_add (h : d.add s = some d') (place : List String) :
    Hides d'.root.node? place ↔ inside (s.arrays ++ arrays) place = true := by
  have heffect := (effect_add h).1
  rw [inside_append]
  by_cases hinside : inside arrays (s.place d.current) = true
  · rw [heffect.hidden ((harrays _).2 hinside), harrays]
    refine ⟨.inr, fun hplace => hplace.elim (fun hnew => ?_) id⟩
    obtain ⟨a, ha, key, rest, rfl⟩ := inside_iff.1 hnew
    obtain rfl := Statement.eq_place_of_mem_arrays d.current ha
    exact inside_trans key rest hinside
  · rw [(heffect.shown (mt (harrays _).1 hinside)).hides_iff, harrays, Statement.exists_tables_iff,
      or_comm]

theorem gains_foldlM {doc : List Statement} (h : doc.foldlM add d = some d') :
    Gains d.root.node? d'.root.node? (branchesFrom arrays d.current doc) := by
  induction doc generalizing d arrays with
  | nil =>
    obtain rfl := Option.some.inj h
    exact gains_self_of_forall (by simp [branchesFrom])
  | cons s doc ih =>
    rw [List.foldlM_cons] at h
    obtain ⟨d₁, hd₁, h⟩ := Option.bind_eq_some_iff.1 h
    have hrest := ih (hides_add harrays hd₁) h
    rw [(effect_add hd₁).2] at hrest
    exact (gains_add harrays hd₁).trans hrest

end

end Document

/-- **Reading a document** builds the table that it denotes. -/
theorem denotes_of_parse {text : String} {t : Table} (h : parse text = some t) :
    Denotes text t := by
  obtain ⟨doc, hdoc, h⟩ := Option.bind_eq_some_iff.1 h
  obtain ⟨d, hd, h⟩ := Option.bind_eq_some_iff.1 h
  obtain rfl := Option.some.inj h
  have hopen (place : List String) : Hides (Table.node? []) place ↔ inside [] place = true := by
    rw [gains_empty.hides_iff]
    simp [not_hides_nowhere, inside]
  refine ⟨doc, hdoc, fun path n => ?_⟩
  have hgains := gains_empty.trans (Document.gains_foldlM hopen hd) path n
  simpa [nowhere, branches] using hgains

theorem Denotes.node?_eq {text : String} {t t' : Table} (h : Denotes text t)
    (h' : Denotes text t') : t.node? = t'.node? := by
  obtain ⟨doc, hdoc, hshown⟩ := h
  obtain ⟨doc', hdoc', hshown'⟩ := h'
  obtain rfl := Option.some.inj (hdoc.symm.trans hdoc')
  funext path
  exact Option.ext fun n => (hshown path n).trans (hshown' path n).symm

end Toml

end UnitCheck
