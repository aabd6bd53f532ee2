import UnitCheck.Proofs.Toml.Nodes
import UnitCheck.Toml.Parse

/-!
# Keys are distinct

No statement adds a key to a table that has it, so no key is twice in a table that was read from a
document, nor in any of the tables behind a path of keys (`distinct_of_parse`).  The tables in
an array of tables are left out of this.
-/

set_option autoImplicit false

namespace UnitCheck

namespace Toml

/-- No key is there twice, in the table or in any table behind a path of keys. -/
inductive Table.Distinct : Table → Prop where
  | intro {t : Table} (keys : (t.map Prod.fst).Nodup)
    (inner : ∀ key origin entries, (key, Value.table origin entries) ∈ t → Distinct entries) :
    Distinct t

/-- The same of a value, if it is a table. -/
def Value.Distinct : Value → Prop
  | .table _ entries => Table.Distinct entries
  | _ => True

/-! ## Tables -/

namespace Table

theorem distinct_nil : Distinct [] := .intro (by simp) (by simp)

section

variable {t t' : Table} {key : String} {v v' : Value} {path : List String}
  {change : Table → Option Table}

theorem Distinct.of_lookup (h : t.Distinct) (hsome : t.lookup key = some v) : v.Distinct := by
  obtain ⟨-, hinner⟩ := h
  obtain ⟨front, back, rfl, -⟩ := List.lookup_eq_some_iff.1 hsome
  cases v with
  | table origin entries => exact hinner key origin entries (by simp)
  | scalar | array | tables => trivial

theorem distinct_of_at? (hv : v.Distinct) (h : v.at? path = some v') : v'.Distinct := by
  induction path generalizing v with
  | nil =>
    obtain rfl := Option.some.inj h
    exact hv
  | cons key path ih =>
    cases v with
    | table origin entries =>
      obtain ⟨inner, hinner, h⟩ := Option.bind_eq_some_iff.1 h
      exact ih (Distinct.of_lookup hv hinner) h
    | scalar | array | tables => simp [Value.at?] at h

theorem eq_nil_of_lookup (h : ∀ k, t.lookup k = none) : t = [] := by
  cases t with
  | nil => rfl
  | cons e t => simpa using h e.1

theorem Distinct.eq_single (h : t.Distinct) (hkey : t.lookup key = some v)
    (honly : ∀ k, t.lookup k ≠ none → k = key) : t = [(key, v)] := by
  obtain ⟨hkeys, -⟩ := h
  cases t with
  | nil => simp at hkey
  | cons e rest =>
    obtain ⟨k, v'⟩ := e
    obtain rfl : k = key := honly k (by simp)
    cases rest with
    | nil => simpa using hkey
    | cons e' rest =>
      -- both keys would have to be the same one
      have hsecond := honly e'.1 (by simp)
      simp [hsecond] at hkeys

theorem Distinct.append (h : t.Distinct) (hnone : t.lookup key = none) (hv : v.Distinct) :
    Distinct (t ++ [(key, v)]) := by
  obtain ⟨hkeys, hinner⟩ := h
  constructor
  · have hnew : key ∉ t.map Prod.fst := by
      intro hmem
      obtain ⟨e, he, rfl⟩ := List.mem_map.1 hmem
      simpa using List.lookup_eq_none_iff.1 hnone e he
    rw [List.map_append, List.map_singleton, List.nodup_append]
    refine ⟨hkeys, by simp, fun k hk k' hk' hsame => hnew ?_⟩
    rwa [hsame, List.mem_singleton.1 hk'] at hk
  · intro k origin entries hmem
    rcases List.mem_append.1 hmem with hmem | hmem
    · exact hinner k origin entries hmem
    · obtain ⟨-, rfl⟩ := Prod.mk.inj (List.mem_singleton.1 hmem)
      exact hv

theorem Distinct.replace (h : t.Distinct) (hv : v.Distinct) : Distinct (t.replace key v) := by
  obtain ⟨hkeys, hinner⟩ := h
  constructor
  · have hsame : (t.replace key v).map Prod.fst = t.map Prod.fst := by
      rw [Table.replace, List.map_map]
      refine List.map_congr_left fun e _ => ?_
      rw [Function.comp_apply]
      split
      · rename_i hkey
        exact (beq_iff_eq.1 hkey).symm
      · rfl
    rwa [hsame]
  · intro k origin entries hmem
    obtain ⟨e, he, hreplaced⟩ := List.mem_map.1 hmem
    split at hreplaced
    · obtain ⟨-, rfl⟩ := Prod.mk.inj hreplaced
      exact hv
    · exact hinner k origin entries (hreplaced ▸ he)

theorem Descends.distinct (h : Descends key change t t') (ht : t.Distinct)
    (hchange : ∀ inner inner', change inner = some inner' → inner.Distinct → inner'.Distinct) :
    t'.Distinct := by
  cases h with
  | made origin hnone h => exact ht.append hnone (hchange _ _ h distinct_nil)
  | table hsome h => exact ht.replace (hchange _ _ h (ht.of_lookup hsome))
  | tables hsome h => exact ht.replace trivial

theorem Distinct.insert (ht : t.Distinct) (hv : v.Distinct)
    (h : insert path key v t = some t') : t'.Distinct := by
  induction path generalizing t t' with
  | nil =>
    rw [Table.insert, addNew] at h
    split at h
    · simp at h
    · rename_i hnone
      obtain rfl := Option.some.inj h
      exact ht.append (Option.not_isSome_iff_eq_none.1 hnone) hv
  | cons p path ih => exact (descends_insert h).distinct ht fun _ _ h hinner => ih hinner h

theorem Distinct.changeAt (ht : t.Distinct)
    (hchange : ∀ inner inner', change inner = some inner' → inner.Distinct → inner'.Distinct)
    (h : changeAt t path change = some t') : t'.Distinct := by
  induction path generalizing t t' with
  | nil => exact hchange t t' h ht
  | cons p path ih => exact (descends_changeAt h).distinct ht fun _ _ h hinner => ih hinner h

theorem Distinct.openTable (ht : t.Distinct) (h : openTable key t = some t') : t'.Distinct := by
  rw [Table.openTable] at h
  split at h
  · rename_i hnone
    obtain rfl := Option.some.inj h
    exact ht.append hnone distinct_nil
  · rename_i inner hsome
    obtain rfl := Option.some.inj h
    have hinner : Distinct inner := ht.of_lookup hsome
    exact ht.replace hinner
  · simp at h

theorem Distinct.appendTable (ht : t.Distinct) (h : appendTable key t = some t') :
    t'.Distinct := by
  rw [Table.appendTable] at h
  split at h
  · rename_i hnone
    obtain rfl := Option.some.inj h
    exact ht.append hnone trivial
  · obtain rfl := Option.some.inj h
    exact ht.replace trivial
  · simp at h

end

end Table

/-! ## Documents -/

mutual

theorem Written.distinct_value {w : Written} {v : Value} (h : w.value? = some v) :
    v.Distinct := by
  cases w with
  | scalar s =>
    obtain rfl := Option.some.inj h
    trivial
  | array items =>
    obtain ⟨vs, -, rfl⟩ := Option.map_eq_some_iff.1 h
    trivial
  | inline entries =>
    obtain ⟨t, ht, rfl⟩ := Option.map_eq_some_iff.1 h
    exact Written.distinct_defineAll ht Table.distinct_nil

theorem Written.distinct_defineAll {entries : List (Key × Written)} {t t' : Table}
    (h : Written.defineAll entries t = some t') (ht : t.Distinct) : t'.Distinct := by
  cases entries with
  | nil =>
    obtain rfl := Option.some.inj h
    exact ht
  | cons e entries =>
    obtain ⟨key, w⟩ := e
    obtain ⟨v, hv, h⟩ := Option.bind_eq_some_iff.1 h
    obtain ⟨t₁, ht₁, h⟩ := Option.bind_eq_some_iff.1 h
    exact Written.distinct_defineAll h (ht.insert (Written.distinct_value hv) ht₁)

end

namespace Document

variable {d d' : Document} {s : Statement}

theorem distinct_add (h : d.add s = some d') (hd : d.root.Distinct) : d'.root.Distinct := by
  cases s with
  | entry key w =>
    obtain ⟨v, hv, h⟩ := Option.bind_eq_some_iff.1 h
    obtain ⟨t, ht, h⟩ := Option.bind_eq_some_iff.1 h
    obtain rfl := Option.some.inj h
    exact hd.changeAt (fun _ _ h hinner => hinner.insert (Written.distinct_value hv) h) ht
  | table key =>
    obtain ⟨t, ht, rfl⟩ := Option.map_eq_some_iff.1 h
    exact hd.changeAt (fun _ _ h hinner => hinner.openTable h) ht
  | tables key =>
    obtain ⟨t, ht, rfl⟩ := Option.map_eq_some_iff.1 h
    exact hd.changeAt (fun _ _ h hinner => hinner.appendTable h) ht

theorem distinct_foldlM {doc : List Statement} (h : doc.foldlM add d = some d')
    (hd : d.root.Distinct) : d'.root.Distinct := by
  induction doc generalizing d with
  | nil =>
    obtain rfl := Option.some.inj h
    exact hd
  | cons s doc ih =>
    rw [List.foldlM_cons] at h
    obtain ⟨d₁, hd₁, h⟩ := Option.bind_eq_some_iff.1 h
    exact ih h (distinct_add hd₁ hd)

end Document

theorem distinct_of_parse {text : String} {t : Table} (h : parse text = some t) : t.Distinct := by
  obtain ⟨doc, -, h⟩ := Option.bind_eq_some_iff.1 h
  obtain ⟨d, hd, h⟩ := Option.bind_eq_some_iff.1 h
  obtain rfl := Option.some.inj h
  exact Document.distinct_foldlM hd Table.distinct_nil

end Toml

end UnitCheck
