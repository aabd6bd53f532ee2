import UnitCheck.Config
import UnitCheck.Proofs.Toml.Distinct
import UnitCheck.Proofs.Toml.Document

/-!
# Configurations are read strictly

A configuration is read from the table that its document denotes, whatever mixture of headers,
dotted keys and inline tables says what is in that table.  A key that means nothing is an error at
every level, and an option that is read has the value that the table gives it, or its default if the
table gives none (`Config.parse_strict`).

A format is named by a text, or by the only key of a table that has nothing behind that key: an
empty table, or an empty array as well.
-/

set_option autoImplicit false

namespace UnitCheck

open Toml

/-! ## What a table says -/

namespace Config

/-- What is at the key, if anything is, is a table. -/
def TableIfAny (f : View) (key : String) : Prop := f [key] = none ∨ f [key] = some .table

/-- There is a key that means nothing, or something for stopping early that is no boolean. -/
inductive Stray (f : View) : Prop where
  | top {key : String} (hcheck : key ≠ "check") (houtput : key ≠ "output") (hnode : f [key] ≠ none)
  | check {key : String} (hkey : key ≠ "fail_fast") (hnode : f ["check", key] ≠ none)
  | output {key : String} (hkey : key ≠ "format") (hnode : f ["output", key] ≠ none)
  | failFast {n : Node} (hnode : f ["check", "fail_fast"] = some n)
    (hboolean : ∀ b, n ≠ .scalar (.boolean b))

/-- There is nothing but an empty table or an empty array. -/
inductive Vacant (f : View) : Prop where
  | table (hnode : f [] = some .table) (hinner : ∀ key, f [key] = none)
  | array (hnode : f [] = some (.array 0))

/-- The format is named, by a text or by the only key of a table, with nothing behind it. -/
inductive Names (f : View) (format : OutputFormat) : Prop where
  | text (hnode : f [] = some (.scalar (.string format.name)))
  | key (hnode : f [] = some .table) (honly : ∀ key, f [key] ≠ none ↔ key = format.name)
    (hvacant : Vacant (behind [format.name] f))

/-- The options have the values that they are given, or their defaults. -/
structure Gives (f : View) (c : Config) : Prop where
  failFast : f ["check", "fail_fast"] = some (.scalar (.boolean c.failFast)) ∨
    f ["check", "fail_fast"] = none ∧ c.failFast = false
  format : Names (behind ["output", "format"] f) c.format ∨
    f ["output", "format"] = none ∧ c.format = .human

theorem not_stray_iff {f : View} :
    ¬Stray f ↔ (∀ key, f [key] ≠ none → key = "check" ∨ key = "output") ∧
      (∀ key, f ["check", key] ≠ none → key = "fail_fast") ∧
        (∀ key, f ["output", key] ≠ none → key = "format") ∧
          ∀ n, f ["check", "fail_fast"] = some n → ∃ b, n = .scalar (.boolean b) := by
  constructor
  · intro h
    refine ⟨fun key hnode => ?_, fun key hnode => ?_, fun key hnode => ?_, fun n hnode => ?_⟩
    · by_cases hcheck : key = "check"
      · exact .inl hcheck
      · by_cases houtput : key = "output"
        · exact .inr houtput
        · exact absurd (.top hcheck houtput hnode) h
    · by_cases hkey : key = "fail_fast"
      · exact hkey
      · exact absurd (.check hkey hnode) h
    · by_cases hkey : key = "format"
      · exact hkey
      · exact absurd (.output hkey hnode) h
    · by_cases hboolean : ∃ b, n = .scalar (.boolean b)
      · exact hboolean
      · exact absurd (.failFast hnode fun b hb => hboolean ⟨b, hb⟩) h
  · rintro ⟨htop, hcheck, houtput, hboolean⟩ h
    cases h with
    | top hcheck' houtput' hnode => exact (htop _ hnode).elim hcheck' houtput'
    | check hkey hnode => exact hkey (hcheck _ hnode)
    | output hkey hnode => exact hkey (houtput _ hnode)
    | failFast hnode hne =>
      obtain ⟨b, hb⟩ := hboolean _ hnode
      exact hne b hb

/-! ## Reading options -/

theorem ofName?_eq_some_iff (name : String) (format : OutputFormat) :
    OutputFormat.ofName? name = some format ↔ name = format.name := by
  rw [OutputFormat.ofName?, List.lookup_cons]
  by_cases hhuman : name = "human"
  · subst hhuman
    cases format <;> simp [OutputFormat.name]
  · rw [beq_false_of_ne hhuman, List.lookup_cons]
    by_cases hjson : name = "json"
    · subst hjson
      cases format <;> simp [OutputFormat.name]
    · rw [beq_false_of_ne hjson]
      cases format <;> simp [OutputFormat.name, hhuman, hjson]

section

variable {t : Table} {v : Value}

theorem readBool_eq_some_iff (b : Bool) : readBool v = some b ↔ v.node = .scalar (.boolean b) := by
  cases v with
  | scalar s => cases s <;> simp [readBool, Value.node]
  | array | table | tables => simp [readBool, Value.node]

theorem isEmpty_iff : isEmpty v = true ↔ Vacant v.node? := by
  constructor
  · intro h
    cases v with
    | scalar | tables => simp [isEmpty] at h
    | array items =>
      obtain rfl : items = [] := by simpa [isEmpty] using h
      exact .array rfl
    | table origin entries =>
      obtain rfl : entries = [] := by simpa [isEmpty] using h
      exact .table rfl fun key => rfl
  · intro h
    cases h with
    | table hnode hinner =>
      cases v with
      | table origin entries =>
        have hentries : entries = [] := Table.eq_nil_of_lookup fun key => by
          have hkey := hinner key
          rwa [Value.node?_table, Table.node?_key, Option.map_eq_none_iff] at hkey
        rw [hentries, isEmpty, List.isEmpty_nil]
      | scalar | array | tables => simp [Value.node] at hnode
    | array hnode =>
      cases v with
      | array items => simpa [isEmpty, Value.node] using hnode
      | scalar | table | tables => simp [Value.node] at hnode

theorem readFormat_single {origin : Origin} {key : String} (format : OutputFormat) :
    readFormat (.table origin [(key, v)]) = some format ↔
      isEmpty v = true ∧ key = format.name := by
  rw [readFormat]
  by_cases h : isEmpty v = true
  · rw [if_pos h, ofName?_eq_some_iff]
    simp [h]
  · rw [if_neg h]
    simp [h]

theorem Names.text_or_table {f : View} {format : OutputFormat} (h : Names f format) :
    f [] = some (.scalar (.string format.name)) ∨ f [] = some .table := by
  cases h with
  | text hnode => exact .inl hnode
  | key hnode => exact .inr hnode

/-- A format is read from what names it. -/
theorem readFormat_eq_some_iff (hv : v.Distinct) (format : OutputFormat) :
    readFormat v = some format ↔ Names v.node? format := by
  cases v with
  | scalar s =>
    cases s with
    | string name =>
      rw [readFormat, ofName?_eq_some_iff]
      constructor
      · rintro rfl
        exact .text rfl
      · intro h
        simpa [Value.node] using h.text_or_table
    | boolean | number | moment =>
      refine ⟨by simp [readFormat], fun h => ?_⟩
      simpa [Value.node] using h.text_or_table
  | array | tables =>
    refine ⟨by simp [readFormat], fun h => ?_⟩
    simpa [Value.node] using h.text_or_table
  | table origin entries =>
    constructor
    · intro h
      cases entries with
      | nil => simp [readFormat] at h
      | cons e rest =>
        cases rest with
        | cons e' rest => simp [readFormat] at h
        | nil =>
          obtain ⟨key, inner⟩ := e
          obtain ⟨hempty, rfl⟩ := (readFormat_single format).1 h
          refine .key rfl (fun key => ?_) ?_
          · rw [Value.node?_table, Table.node?_key, Table.lookup_single]
            split <;> simp [*]
          · rw [Value.node?_table, Table.behind_of_at? (Table.at?_of_lookup List.lookup_cons_self)]
            exact isEmpty_iff.1 hempty
    · intro h
      cases h with
      | text hnode => simp [Value.node] at hnode
      | key _ honly hvacant =>
        simp only [Value.node?_table, Table.node?_key, ne_eq, Option.map_eq_none_iff] at honly
        obtain ⟨inner, hinner⟩ := Option.ne_none_iff_exists'.1 ((honly format.name).2 rfl)
        rw [Value.node?_table, Table.behind_of_at? (Table.at?_of_lookup hinner),
          ← isEmpty_iff] at hvacant
        rw [Table.Distinct.eq_single hv hinner fun k => (honly k).1, readFormat_single]
        exact ⟨hvacant, rfl⟩

theorem readOption_eq_some_iff {α : Type} {key : String} {default : α} {read : Value → Option α}
    {origin : Origin} (ht : t.Distinct) (a : α) :
    readOption key default read (.table origin t) = some a ↔
      (∀ k, t.lookup k ≠ none → k = key) ∧
        ((∃ v, t.lookup key = some v ∧ read v = some a) ∨ t.lookup key = none ∧ a = default) := by
  constructor
  · intro h
    cases t with
    | nil =>
      obtain rfl := Option.some.inj h
      simp
    | cons e rest =>
      cases rest with
      | cons e' rest => simp [readOption] at h
      | nil =>
        obtain ⟨k, v⟩ := e
        rw [readOption] at h
        split at h
        · rename_i hk
          subst hk
          refine ⟨fun k' hk' => ?_, .inl ⟨v, List.lookup_cons_self, h⟩⟩
          simpa [Table.lookup_single] using hk'
        · simp at h
  · rintro ⟨honly, ⟨v, hv, hread⟩ | ⟨hnone, rfl⟩⟩
    · rw [ht.eq_single hv honly, readOption, if_pos rfl, hread]
    · have hempty : t = [] := Table.eq_nil_of_lookup fun k => by
        by_cases hk : t.lookup k = none
        · exact hk
        · rwa [honly k hk]
      rw [hempty, readOption]

end

/-! ## Reading configurations -/

section

variable {t : Table} {text : String}

theorem ofTable?_eq (t : Table) :
    ofTable? t =
      if t.all fun e => e.1 == "check" || e.1 == "output" then
        ((t.lookup "check").elim (some false) (readOption "fail_fast" false readBool)).bind
          fun failFast =>
            ((t.lookup "output").elim (some .human) (readOption "format" .human readFormat)).bind
              fun format => some { failFast, format }
      else none := by
  rw [ofTable?]
  cases t.lookup "check" <;> cases t.lookup "output" <;> rfl

/-- An option is read from the table that it belongs to. -/
theorem option_eq_some_iff {α : Type} {part key : String} {default : α} {read : Value → Option α}
    (ht : t.Distinct) (hpart : TableIfAny t.node? part) (a : α) :
    (t.lookup part).elim (some default) (readOption key default read) = some a ↔
      (∀ k, t.node? [part, k] ≠ none → k = key) ∧
        ((∃ v, t.at? [part, key] = some v ∧ read v = some a) ∨
          t.node? [part, key] = none ∧ a = default) := by
  cases hlookup : t.lookup part with
  | none =>
    have hnode (path : List String) : t.node? (part :: path) = none := by
      rw [Table.node?_cons, hlookup, Option.bind_none]
    have hvalue : t.at? [part, key] = none := by
      rw [Table.at?, Value.at?, hlookup, Option.bind_none]
    simp [hnode, hvalue, eq_comm]
  | some v =>
    cases v with
    | table origin entries =>
      have hnode (k : String) : t.node? [part, k] = (entries.lookup k).map Value.node := by
        rw [Table.node?_of_lookup hlookup, Value.node?_table, Table.node?_key]
      have hvalue : t.at? [part, key] = entries.lookup key := by
        rw [Table.at?, Value.at?, hlookup, Option.bind_some, Value.at?]
        cases entries.lookup key <;> rfl
      rw [Option.elim_some, readOption_eq_some_iff (ht.of_lookup hlookup), hvalue, hnode key]
      simp only [hnode, ne_eq, Option.map_eq_none_iff]
    | scalar | array | tables => simp [TableIfAny, Table.node?_key, hlookup, Value.node] at hpart

theorem all_keys_iff (t : Table) :
    (t.all fun e => e.1 == "check" || e.1 == "output") = true ↔
      ∀ key, t.node? [key] ≠ none → key = "check" ∨ key = "output" := by
  have hkey (key : String) : t.node? [key] ≠ none ↔ ∃ e ∈ t, key = e.1 := by
    rw [Table.node?_key, Option.ne_none_iff_isSome, Option.isSome_map, List.lookup_isSome_iff]
    simp
  simp only [List.all_eq_true, Bool.or_eq_true, beq_iff_eq, hkey]
  constructor
  · rintro h key ⟨e, he, rfl⟩
    exact h e he
  · exact fun h e he => h e.1 ⟨e, he, rfl⟩

theorem ofTable?_eq_some_iff (t : Table) (c : Config) :
    ofTable? t = some c ↔
      (t.all fun e => e.1 == "check" || e.1 == "output") = true ∧
        (t.lookup "check").elim (some false) (readOption "fail_fast" false readBool) =
            some c.failFast ∧
          (t.lookup "output").elim (some .human) (readOption "format" .human readFormat) =
            some c.format := by
  obtain ⟨failFast, format⟩ := c
  rw [ofTable?_eq]
  split
  · rename_i hkeys
    simp [hkeys, Option.bind_eq_some_iff]
  · rename_i hkeys
    simp [hkeys]

theorem exists_readFormat_iff (ht : t.Distinct) (path : List String) (format : OutputFormat) :
    (∃ v, t.at? path = some v ∧ readFormat v = some format) ↔
      Names (behind path t.node?) format := by
  have hread {v : Value} (hv : t.at? path = some v) :
      readFormat v = some format ↔ Names (behind path t.node?) format := by
    rw [Table.behind_of_at? hv]
    have hdistinct : (Value.table .header t).Distinct := ht
    exact readFormat_eq_some_iff (Table.distinct_of_at? hdistinct hv) format
  constructor
  · rintro ⟨v, hv, h⟩
    exact (hread hv).1 h
  · intro h
    have hroot : behind path t.node? [] = t.node? path := by rw [behind, List.append_nil]
    have hnode : t.node? path ≠ none := by
      rw [← hroot]
      rcases h.text_or_table with h | h <;> simp [h]
    obtain ⟨n, hn⟩ := Option.ne_none_iff_exists'.1 hnode
    obtain ⟨v, hv, -⟩ := Option.map_eq_some_iff.1 hn
    exact ⟨v, hv, (hread hv).2 h⟩

/-- A table describes the configuration that it gives, if there is nothing else in it. -/
theorem describes_iff (ht : t.Distinct)
    (hcheck : TableIfAny t.node? "check") (houtput : TableIfAny t.node? "output") (c : Config) :
    ofTable? t = some c ↔ ¬Stray t.node? ∧ Gives t.node? c := by
  have hfailFast : (∃ v, t.at? ["check", "fail_fast"] = some v ∧ readBool v = some c.failFast) ↔
      t.node? ["check", "fail_fast"] = some (.scalar (.boolean c.failFast)) := by
    simp [readBool_eq_some_iff, Table.node?]
  rw [ofTable?_eq_some_iff, all_keys_iff, option_eq_some_iff ht hcheck,
    option_eq_some_iff ht houtput, hfailFast, exists_readFormat_iff ht, not_stray_iff]
  constructor
  · rintro ⟨htop, ⟨hinCheck, hgiven⟩, hinOutput, hgiven'⟩
    refine ⟨⟨htop, hinCheck, hinOutput, fun n hn => ⟨c.failFast, ?_⟩⟩, hgiven, hgiven'⟩
    rcases hgiven with hgiven | ⟨hnone, -⟩
    · exact Option.some.inj (hn.symm.trans hgiven)
    · exact absurd (hn.symm.trans hnone) (by simp)
  · rintro ⟨⟨htop, hinCheck, hinOutput, -⟩, hgiven, hgiven'⟩
    exact ⟨htop, ⟨hinCheck, hgiven⟩, hinOutput, hgiven'⟩

theorem parse_eq_some_iff (ht : Denotes text t)
    (hcheck : TableIfAny t.node? "check") (houtput : TableIfAny t.node? "output") (c : Config) :
    parse text = some c ↔
      (Toml.parse text).isSome ∧ ¬Stray t.node? ∧ Gives t.node? c := by
  rw [parse]
  cases hparse : Toml.parse text with
  | none => simp
  | some t' =>
    have hsame := ht.node?_eq (denotes_of_parse hparse)
    rw [hsame] at hcheck houtput ⊢
    rw [Option.bind_some, describes_iff (distinct_of_parse hparse) hcheck houtput]
    simp

/-- **Configurations are read strictly.**  Let a document denote a table in which `check` and
`output` are tables where they are there at all.  If the table has a key that means nothing, or
something other than a boolean at `check.fail_fast`, there is no configuration.  If there is one,
its options have the values that the table gives them, or their defaults.  And a document that
defines nothing twice has one if there is nothing else in its table. -/
theorem parse_strict (ht : Denotes text t)
    (hcheck : TableIfAny t.node? "check") (houtput : TableIfAny t.node? "output") :
    (Stray t.node? → parse text = none) ∧
      (∀ c, parse text = some c → Gives t.node? c) ∧
        ∀ c, (Toml.parse text).isSome → ¬Stray t.node? → Gives t.node? c → parse text = some c := by
  have hiff := parse_eq_some_iff ht hcheck houtput
  refine ⟨fun hstray => ?_, fun c hc => ((hiff c).1 hc).2.2, fun c htoml hstray hgives =>
    (hiff c).2 ⟨htoml, hstray, hgives⟩⟩
  refine Option.eq_none_iff_forall_ne_some.2 fun c hc => ?_
  exact ((hiff c).1 hc).2.1 hstray

/-- Options are found through dotted and quoted keys, headers and inline tables, and so is one that
is misspelt. -/
theorem parse_strict_mixed :
    let text := "check.fail_fast=true\n[output.'format']\njson={}"
    let misspelt := "output={}\n[check]\n\"fail_fats\"=true"
    (∃ t, Denotes text t ∧ TableIfAny t.node? "check" ∧ TableIfAny t.node? "output" ∧
      parse text = some ⟨true, .json⟩ ∧ Gives t.node? ⟨true, .json⟩) ∧
        ∃ t, Denotes misspelt t ∧ TableIfAny t.node? "check" ∧ TableIfAny t.node? "output" ∧
          Stray t.node? ∧ parse misspelt = none := by
  intro text misspelt
  have hnodes : (Toml.parse text).map (fun t => (t.node? ["check"], t.node? ["output"])) =
      some (some .table, some .table) := by
    decide +kernel
  have hnodes' : (Toml.parse misspelt).map (fun t =>
      (t.node? ["check"], t.node? ["output"], t.node? ["check", "fail_fats"])) =
        some (some .table, some .table, some (.scalar (.boolean true))) := by
    decide +kernel
  constructor
  · obtain ⟨t, ht, hnodes⟩ := Option.map_eq_some_iff.1 hnodes
    obtain ⟨hcheck, houtput⟩ := Prod.mk.inj hnodes
    have hparse : parse text = some ⟨true, .json⟩ := by decide +kernel
    have hdenotes := denotes_of_parse ht
    exact ⟨t, hdenotes, .inr hcheck, .inr houtput, hparse,
      (parse_strict hdenotes (.inr hcheck) (.inr houtput)).2.1 _ hparse⟩
  · obtain ⟨t, ht, hnodes⟩ := Option.map_eq_some_iff.1 hnodes'
    obtain ⟨hcheck, hnodes⟩ := Prod.mk.inj hnodes
    obtain ⟨houtput, hkey⟩ := Prod.mk.inj hnodes
    have hdenotes := denotes_of_parse ht
    have hstray : Stray t.node? :=
      .check (show "fail_fats" ≠ "fail_fast" by decide) (by simp [hkey])
    exact ⟨t, hdenotes, .inr hcheck, .inr houtput, hstray,
      (parse_strict hdenotes (.inr hcheck) (.inr houtput)).1 hstray⟩

/-- A format is also named by a key with an empty array behind it, which is neither a text nor a
table. -/
theorem parse_format_over_array :
    let text := "output.format.json=[]"
    let c : Config := { format := .json }
    ∃ t, Denotes text t ∧ TableIfAny t.node? "check" ∧ TableIfAny t.node? "output" ∧
      parse text = some c ∧
        ¬(t.node? ["output", "format"] = none ∧ c.format = .human ∨
          t.node? ["output", "format"] = some (.scalar (.string c.format.name)) ∨
          t.node? ["output", "format", c.format.name] = some .table) := by
  intro text c
  have hnodes : (Toml.parse text).map (fun t =>
      (t.node? ["check"], t.node? ["output"], t.node? ["output", "format"],
        t.node? ["output", "format", "json"])) =
        some (none, some .table, some .table, some (.array 0)) := by
    decide +kernel
  obtain ⟨t, ht, hnodes⟩ := Option.map_eq_some_iff.1 hnodes
  obtain ⟨hcheck, hnodes⟩ := Prod.mk.inj hnodes
  obtain ⟨houtput, hnodes⟩ := Prod.mk.inj hnodes
  obtain ⟨hformat, hkey⟩ := Prod.mk.inj hnodes
  refine ⟨t, denotes_of_parse ht, .inl hcheck, .inr houtput, by decide +kernel, ?_⟩
  rw [show c.format.name = "json" from rfl, hformat, hkey]
  simp

end

end Config

end UnitCheck
