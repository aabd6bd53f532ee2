import Mathlib.Data.List.Forall2
import UnitCheck.Json.Record
import UnitCheck.Proofs.Json.Nesting

/-!
# Taking records apart

A record that is written out in full is an object with all fields or an array of them
(`RecordOf`), and a tagged one has its tag in front (`TaggedOf`).  Either way `Json.fields` finds
every field in its place, and the record nests one level deeper than its fields do.

`asList_eq_ite` is about a list whose elements are read only where there is room for them: the list
is read exactly if there is room for the deepest one.
-/

set_option autoImplicit false

namespace UnitCheck

namespace Json

/-! ## Scalars -/

@[simp] theorem asString_str (s : String) : asString (.str s) = some s := rfl

@[simp] theorem asBool_bool (b : Bool) : asBool (.bool b) = some b := rfl

@[simp] theorem asUInt32_ofUInt32 (n : UInt32) : asUInt32 (ofUInt32 n) = some n := by
  have h : n.toNat < UInt32.size := n.toNat_lt
  rw [ofUInt32, asUInt32, if_pos h, Nat.toUInt32, UInt32.ofNat_toNat]

@[simp] theorem asUInt64_ofUInt64 (n : UInt64) : asUInt64 (ofUInt64 n) = some n := by
  have h : n.toNat < UInt64.size := n.toNat_lt
  rw [ofUInt64, asUInt64, if_pos h, Nat.toUInt64, UInt64.ofNat_toNat]

@[simp] theorem depth_ofUInt32 (n : UInt32) : (ofUInt32 n).depth = 0 := by
  rw [ofUInt32, depth]

@[simp] theorem depth_ofUInt64 (n : UInt64) : (ofUInt64 n).depth = 0 := by
  rw [ofUInt64, depth]

theorem plain_ofUInt32 (n : UInt32) : Plain (ofUInt32 n) := by
  have h : n.toNat < UInt32.size := n.toNat_lt
  exact .nat (Nat.lt_trans h (by decide))

theorem plain_ofUInt64 (n : UInt64) : Plain (ofUInt64 n) :=
  .nat n.toNat_lt

/-! ## Values that denote something -/

theorem areValues_iff {items : List Json} :
    areValues items = true ↔ ∀ j ∈ items, j.isValue = true := by
  induction items with
  | nil => simp [areValues]
  | cons j rest ih => rw [areValues, Bool.and_eq_true, ih, List.forall_mem_cons]

theorem membersAreValues_iff {members : List (String × Json)} :
    membersAreValues members = true ↔ ∀ m ∈ members, m.2.isValue = true := by
  induction members with
  | nil => simp [membersAreValues]
  | cons m rest ih => rw [membersAreValues, Bool.and_eq_true, ih, List.forall_mem_cons]

theorem Plain.isValue {j : Json} (h : Plain j) : j.isValue = true := by
  induction h with
  | null => rfl
  | bool _ => rfl
  | nat _ => rfl
  | str _ => rfl
  | arr _ ih => rw [Json.isValue, areValues_iff]; exact ih
  | obj _ ih => rw [Json.isValue, membersAreValues_iff]; exact ih

theorem fits_iff {j : Json} {room : Nat} :
    j.fits room = true ↔ j.isValue = true ∧ j.depth ≤ room := by
  rw [fits, Bool.and_eq_true, decide_eq_true_iff]

theorem Plain.fits_eq {j : Json} (h : Plain j) (room : Nat) :
    j.fits room = decide (j.depth ≤ room) := by
  rw [fits, h.isValue, Bool.true_and]

/-! ## Fields -/

@[simp] theorem required_some {α : Type} (read : Json → Option α) (j : Json) :
    required read (some j) = read j := rfl

@[simp] theorem withDefault_some {α : Type} (default : α) (read : Json → Option α) (j : Json) :
    withDefault default read (some j) = read j := rfl

theorem filter_key_eq_nil {members : List (String × Json)} {key : String}
    (h : key ∉ members.map Prod.fst) : (members.filter fun m => m.1 == key) = [] := by
  rw [List.filter_eq_nil_iff]
  intro m hm hkey
  exact h (List.mem_map.2 ⟨m, hm, eq_of_beq hkey⟩)

theorem only?_append_cons (before : List (String × Json)) {after : List (String × Json)}
    {key : String} (j : Json) (hbefore : key ∉ before.map Prod.fst)
    (hafter : key ∉ after.map Prod.fst) :
    only? (before ++ (key, j) :: after) key = some (some j) := by
  rw [only?, List.filter_append, filter_key_eq_nil hbefore, List.filter_cons_of_pos (by simp),
    filter_key_eq_nil hafter]
  rfl

theorem map_fst_zip_subset {names : List String} {values : List Json} :
    ∀ {n : String}, n ∈ (names.zip values).map Prod.fst → n ∈ names := by
  intro n h
  obtain ⟨m, hm, rfl⟩ := List.mem_map.1 h
  exact (List.of_mem_zip hm).1

-- the members in front of those still to be read are carried along as `before`
theorem mapM_only?_append_zip {names : List String} {values : List Json}
    (before : List (String × Json)) (hnodup : names.Nodup) (hlen : names.length = values.length)
    (hbefore : ∀ n ∈ names, n ∉ before.map Prod.fst) :
    names.mapM (only? (before ++ names.zip values)) = some (values.map some) := by
  induction names generalizing values before with
  | nil =>
    rw [List.length_nil, eq_comm, List.length_eq_zero_iff] at hlen
    rw [hlen]
    rfl
  | cons n names ih =>
    rw [List.nodup_cons] at hnodup
    cases values with
    | nil => simp at hlen
    | cons v values =>
      have hn : n ∉ (names.zip values).map Prod.fst := fun h => hnodup.1 (map_fst_zip_subset h)
      have hbefore' : ∀ m ∈ names, m ∉ (before ++ [(n, v)]).map Prod.fst := by
        intro m hm
        simp only [List.map_append, List.map_cons, List.map_nil, List.mem_append,
          List.mem_singleton, not_or]
        exact ⟨hbefore m (by simp [hm]), fun h => hnodup.1 (h ▸ hm)⟩
      have hrest := ih _ hnodup.2 (by simpa using hlen) hbefore'
      rw [List.append_assoc, List.singleton_append] at hrest
      rw [List.zip_cons_cons, List.mapM_cons,
        only?_append_cons before v (hbefore n (by simp)) hn, hrest]
      rfl

/-- An object that has every field once, in their order, is read as these fields. -/
theorem fields_zip (names : List String) (values : List Json) (hnodup : names.Nodup)
    (hlen : names.length = values.length) :
    fields names (.obj (names.zip values)) = some (values.map some) :=
  mapM_only?_append_zip [] hnodup hlen (by simp)

theorem memberDepths_zip {names : List String} {values : List Json}
    (hlen : names.length = values.length) : memberDepths (names.zip values) = depths values := by
  induction names generalizing values with
  | nil =>
    rw [List.length_nil, eq_comm, List.length_eq_zero_iff] at hlen
    rw [hlen]
    rfl
  | cons n names ih =>
    cases values with
    | nil => simp at hlen
    | cons v values =>
      rw [List.zip_cons_cons, memberDepths_cons, depths_cons, ih (by simpa using hlen)]

/-- The two ways to write a record in full: an object with every field, and an array. -/
inductive RecordOf (names : List String) (values : List Json) : Json → Prop
  | keyed : RecordOf names values (.obj (names.zip values))
  | positional : RecordOf names values (.arr values)

namespace RecordOf

variable {names : List String} {values : List Json} {j : Json}

theorem fields_eq (h : RecordOf names values j) (hnodup : names.Nodup)
    (hlen : names.length = values.length) : fields names j = some (values.map some) := by
  cases h with
  | keyed => exact fields_zip names values hnodup hlen
  | positional =>
    rw [fields, if_pos (Nat.le_of_eq hlen.symm), hlen, Nat.sub_self, List.replicate_zero,
      List.append_nil]

theorem depth_eq (h : RecordOf names values j) (hlen : names.length = values.length) :
    j.depth = depths values + 1 := by
  cases h with
  | keyed => rw [depth, memberDepths_zip hlen]
  | positional => rw [depth]

theorem plain (h : RecordOf names values j) (hvalues : ∀ v ∈ values, Plain v) : Plain j := by
  cases h with
  | keyed => exact .obj fun m hm => hvalues m.2 (List.of_mem_zip hm).2
  | positional => exact .arr hvalues

end RecordOf

/-! ## Tags -/

/-- The tag comes first and no field has its name. -/
theorem tagged_cons {key : String} {tag : Json} {members : List (String × Json)}
    (h : key ∉ members.map Prod.fst) :
    tagged key (.obj ((key, tag) :: members)) = some (tag, .obj members) := by
  have htag : (((key, tag) :: members).filter fun m => m.1 == key) = [(key, tag)] := by
    rw [List.filter_cons_of_pos (by simp), filter_key_eq_nil h]
  have hrest : (((key, tag) :: members).filter fun m => m.1 != key) = members := by
    rw [List.filter_cons_of_neg (by simp), List.filter_eq_self]
    intro m hm
    rw [bne_iff_ne]
    exact fun hkey => h (List.mem_map.2 ⟨m, hm, hkey⟩)
  simp only [tagged, htag, hrest]

/-- The two ways to write a tagged record in full. -/
inductive TaggedOf (key tag : String) (names : List String) (values : List Json) : Json → Prop
  | keyed : TaggedOf key tag names values (.obj ((key, .str tag) :: names.zip values))
  | positional : TaggedOf key tag names values (.arr (.str tag :: values))

namespace TaggedOf

variable {key tag : String} {names : List String} {values : List Json} {j : Json}

/-- The tag is split off, and what is left has the fields. -/
theorem tagged_eq (h : TaggedOf key tag names values j) (hnodup : (key :: names).Nodup)
    (hlen : names.length = values.length) :
    ∃ body, tagged key j = some (.str tag, body) ∧ fields names body = some (values.map some) := by
  rw [List.nodup_cons] at hnodup
  cases h with
  | keyed =>
    exact ⟨_, tagged_cons fun h => hnodup.1 (map_fst_zip_subset h), fields_zip _ _ hnodup.2 hlen⟩
  | positional => exact ⟨_, rfl, RecordOf.positional.fields_eq hnodup.2 hlen⟩

theorem depth_eq (h : TaggedOf key tag names values j) (hlen : names.length = values.length) :
    j.depth = depths values + 1 := by
  cases h with
  | keyed => rw [depth, memberDepths_cons, memberDepths_zip hlen, depth, Nat.zero_max]
  | positional => rw [depth, depths_cons, depth, Nat.zero_max]

theorem depth_lt (h : TaggedOf key tag names values j) (hlen : names.length = values.length)
    {v : Json} (hv : v ∈ values) : v.depth < j.depth := by
  rw [h.depth_eq hlen, Nat.lt_succ_iff]
  exact depths_le_iff.1 (Nat.le_refl _) v hv

theorem depth_le (h : TaggedOf key tag names values j) (hlen : names.length = values.length)
    {room : Nat} (hroom : j.depth ≤ room + 1) : ∀ v ∈ values, v.depth ≤ room := by
  intro v hv
  have := h.depth_lt hlen hv
  omega

theorem plain (h : TaggedOf key tag names values j) (hvalues : ∀ v ∈ values, Plain v) :
    Plain j := by
  cases h with
  | keyed =>
    refine .obj (List.forall_mem_cons.2 ⟨.str tag, fun m hm => ?_⟩)
    exact hvalues m.2 (List.of_mem_zip hm).2
  | positional => exact .arr (List.forall_mem_cons.2 ⟨.str tag, hvalues⟩)

end TaggedOf

/-! ## Lists and options -/

section

variable {α β γ : Type}

theorem mapM_eq_map {R : α → β → Prop} {read : β → Option γ} {f : α → γ} {as : List α}
    {bs : List β} (h : List.Forall₂ R as bs) (hread : ∀ a, ∀ b ∈ bs, R a b → read b = some (f a)) :
    bs.mapM read = some (as.map f) := by
  induction h with
  | nil => rfl
  | cons hab _ ih =>
    rw [List.mapM_cons, hread _ _ (by simp) hab, ih fun a b hb => hread a b (by simp [hb])]
    rfl

theorem mapM_eq_none {read : β → Option γ} {b : β} {bs : List β} (hb : b ∈ bs)
    (h : read b = none) : bs.mapM read = none := by
  induction bs with
  | nil => simp at hb
  | cons c bs ih =>
    rw [List.mapM_cons]
    rcases List.mem_cons.1 hb with rfl | hb
    · rw [h]; rfl
    · rw [ih hb]
      cases read c <;> rfl

theorem exists_of_forall₂ {R : α → β → Prop} {as : List α} {bs : List β}
    (h : List.Forall₂ R as bs) {b : β} (hb : b ∈ bs) : ∃ a ∈ as, R a b := by
  induction h with
  | nil => simp at hb
  | @cons a _ _ _ hab _ ih =>
    rcases List.mem_cons.1 hb with rfl | hb
    · exact ⟨a, by simp, hab⟩
    · obtain ⟨c, hc, hcb⟩ := ih hb
      exact ⟨c, by simp [hc], hcb⟩

theorem asList_eq_some {R : α → Json → Prop} {read : Json → Option γ} {f : α → γ} {as : List α}
    {items : List Json} {room : Nat} (h : List.Forall₂ R as items)
    (hroom : (Json.arr items).depth ≤ room)
    (hread : ∀ a j, R a j → j.depth ≤ room → read j = some (f a)) :
    asList read (.arr items) = some (as.map f) := by
  refine mapM_eq_map h fun a j hj haj => hread a j haj ?_
  have := depth_lt_arr hj
  omega

/-- A list is read exactly if there is room for its deepest element. -/
theorem asList_eq_ite {R : α → Json → Prop} {read : Json → Option γ} {f : α → γ} {as : List α}
    {items : List Json} (room : Nat) (h : List.Forall₂ R as items)
    (hread : ∀ a j, R a j → read j = if j.depth ≤ room then some (f a) else none) :
    asList read (.arr items) = if depths items ≤ room then some (as.map f) else none := by
  rw [asList]
  split
  · rename_i hle
    rw [depths_le_iff] at hle
    exact mapM_eq_map h fun a j hj haj => by rw [hread a j haj, if_pos (hle j hj)]
  · rename_i hdeep
    rw [depths_le_iff] at hdeep
    simp only [not_forall] at hdeep
    obtain ⟨j, hj, hlt⟩ := hdeep
    obtain ⟨a, -, haj⟩ := exists_of_forall₂ h hj
    exact mapM_eq_none hj (by rw [hread a j haj, if_neg hlt])

/-- An option is written as `null` or as what is there. -/
inductive OptionOf (R : α → Json → Prop) : Option α → Json → Prop
  | absent : OptionOf R none .null
  | present {a : α} {j : Json} (h : R a j) : OptionOf R (some a) j

theorem OptionOf.orNull_eq {R : α → Json → Prop} {f : α → γ} {o : Option α} {j : Json}
    (h : OptionOf R o j) (read : Json → Option γ) (hnull : read .null = none)
    (hread : ∀ a, R a j → read j = some (f a)) : orNull read j = some (o.map f) := by
  cases h with
  | absent => rfl
  | @present a _ h =>
    have hne : j ≠ .null := by
      rintro rfl
      rw [hread a h] at hnull
      cases hnull
    rw [orNull, hread a h]
    · rfl
    · exact hne

theorem OptionOf.depth_eq_zero {R : α → Json → Prop} {o : Option α} {j : Json}
    (h : OptionOf R o j) (hdepth : ∀ a, R a j → j.depth = 0) : j.depth = 0 := by
  cases h with
  | absent => rw [depth]
  | present h => exact hdepth _ h

theorem OptionOf.plain {R : α → Json → Prop} {o : Option α} {j : Json} (h : OptionOf R o j)
    (hplain : ∀ a, R a j → Plain j) : Plain j := by
  cases h with
  | absent => exact .null
  | present h => exact hplain _ h

end

end Json

end UnitCheck
