import UnitCheck.Proofs.Json.Record

/-!
# Sorting keys

`Json.sortKeys` puts the members of every object into ascending order of their keys.  If no object
repeats a key, the keys of the sorted value ascend strictly at every level (`EveryObject.sortKeys`),
and the members of an object have no other order in which they do (`sortMembers_eq`).

A reader of records finds members by their keys, so it reads the same from a value and from the
sorted one.  `KeyBlind` says so of a reader, and it is handed down from the readers of fields to
the readers of records, lists and options (`fields_sortKeys`, `KeyBlind.asList`).
-/

set_option autoImplicit false

namespace UnitCheck

namespace Json

/-! ## What becomes of the members -/

theorem perm_insertMember (m : String × Json) (members : List (String × Json)) :
    (insertMember m members).Perm (m :: members) := by
  induction members with
  | nil => exact .refl _
  | cons n rest ih =>
    rw [insertMember]
    split
    · exact (ih.cons n).trans (.swap m n rest)
    · exact .refl _

theorem sortKeysAll_eq_map (items : List Json) : sortKeysAll items = items.map sortKeys := by
  induction items with
  | nil => rfl
  | cons j rest ih => rw [sortKeysAll, ih, List.map_cons]

/-- The sorted members are the members, each with its value sorted, in another order. -/
theorem perm_sortMembers (members : List (String × Json)) :
    (sortMembers members).Perm (members.map fun m => (m.1, m.2.sortKeys)) := by
  induction members with
  | nil => exact .refl _
  | cons m rest ih =>
    obtain ⟨k, j⟩ := m
    rw [sortMembers, List.map_cons]
    exact (perm_insertMember _ _).trans (ih.cons _)

theorem Plain.sortKeys {j : Json} (h : Plain j) : Plain j.sortKeys := by
  induction h with
  | null => exact .null
  | bool b => exact .bool b
  | nat h => exact .nat h
  | str s => exact .str s
  | arr _ ih =>
    rw [Json.sortKeys, sortKeysAll_eq_map]
    exact .arr (List.forall_mem_map.2 ih)
  | @obj members _ ih =>
    rw [Json.sortKeys]
    refine .obj fun m hm => ?_
    obtain ⟨n, hn, rfl⟩ := List.mem_map.1 ((perm_sortMembers members).mem_iff.1 hm)
    exact ih n hn

theorem memberDepths_insertMember (m : String × Json) (members : List (String × Json)) :
    memberDepths (insertMember m members) = max m.2.depth (memberDepths members) := by
  induction members with
  | nil => rw [insertMember, memberDepths_cons]
  | cons n rest ih =>
    rw [insertMember]
    split
    · rw [memberDepths_cons, memberDepths_cons, ih, Nat.max_left_comm]
    · rw [memberDepths_cons]

mutual

theorem depth_sortKeys (j : Json) : j.sortKeys.depth = j.depth := by
  cases j with
  | null | bool | nat | real | str | invalid => rfl
  | arr items => rw [sortKeys, depth, depth, depths_sortKeysAll items]
  | obj members => rw [sortKeys, depth, depth, memberDepths_sortMembers members]

theorem depths_sortKeysAll (items : List Json) : depths (sortKeysAll items) = depths items := by
  cases items with
  | nil => rfl
  | cons j rest => rw [sortKeysAll, depths, depths, depth_sortKeys j, depths_sortKeysAll rest]

theorem memberDepths_sortMembers (members : List (String × Json)) :
    memberDepths (sortMembers members) = memberDepths members := by
  cases members with
  | nil => rfl
  | cons m rest =>
    obtain ⟨k, j⟩ := m
    rw [sortMembers, memberDepths_insertMember, memberDepths, depth_sortKeys j,
      memberDepths_sortMembers rest]

end

/-! ## Keys at every level -/

/-- The keys of every object in the value, at any depth, have some property. -/
inductive EveryObject (P : List String → Prop) : Json → Prop
  | null : EveryObject P .null
  | bool (b : Bool) : EveryObject P (.bool b)
  | nat (n : Nat) : EveryObject P (.nat n)
  | real : EveryObject P .real
  | str (s : String) : EveryObject P (.str s)
  | invalid : EveryObject P .invalid
  | arr {items : List Json} (h : ∀ j ∈ items, EveryObject P j) : EveryObject P (.arr items)
  | obj {members : List (String × Json)} (hkeys : P (members.map Prod.fst))
      (h : ∀ m ∈ members, EveryObject P m.2) : EveryObject P (.obj members)

theorem everyObject_ofUInt64 {P : List String → Prop} (n : UInt64) : EveryObject P (ofUInt64 n) :=
  .nat _

theorem EveryObject.reread {P : List String → Prop} {j : Json} (h : EveryObject P j) :
    EveryObject P j.reread := by
  induction h with
  | null => exact .null
  | bool b => exact .bool b
  | nat n =>
    rw [Json.reread, Number.ofNat, Number.sized]
    split
    · exact .nat n
    · split
      · exact .invalid
      · exact .real
  | real => exact .real
  | str s => exact .str s
  | invalid => exact .invalid
  | arr _ ih =>
    rw [Json.reread, rereadAll_eq_map]
    exact .arr (List.forall_mem_map.2 ih)
  | @obj members hkeys _ ih =>
    rw [Json.reread, rereadMembers_eq_map]
    refine .obj ?_ (List.forall_mem_map.2 ih)
    rwa [List.map_map]

/-- Strictly ascending, so that no key is repeated. -/
def Ascending (keys : List String) : Prop := keys.Pairwise (· < ·)

instance (keys : List String) : Decidable (Ascending keys) :=
  inferInstanceAs (Decidable (keys.Pairwise (· < ·)))

theorem ascending_insertMember {m : String × Json} {members : List (String × Json)}
    (h : Ascending (members.map Prod.fst)) (hm : m.1 ∉ members.map Prod.fst) :
    Ascending ((insertMember m members).map Prod.fst) := by
  induction members with
  | nil => exact List.pairwise_singleton _ _
  | cons n rest ih =>
    rw [List.map_cons, List.mem_cons, not_or] at hm
    rw [List.map_cons] at h
    obtain ⟨hn, hrest⟩ := List.pairwise_cons.1 h
    rw [insertMember]
    split
    · rename_i hlt
      refine List.pairwise_cons.2 ⟨fun k hk => ?_, ih hrest hm.2⟩
      have hk := ((perm_insertMember m rest).map Prod.fst).mem_iff.1 hk
      rcases List.mem_cons.1 hk with rfl | hk
      · exact hlt
      · exact hn k hk
    · rename_i hlt
      have hmn : m.1 < n.1 := Std.lt_of_le_of_ne (String.not_lt.1 hlt) hm.1
      refine List.pairwise_cons.2 ⟨fun k hk => ?_, h⟩
      rcases List.mem_cons.1 hk with rfl | hk
      · exact hmn
      · exact String.lt_trans hmn (hn k hk)

theorem ascending_sortMembers {members : List (String × Json)}
    (h : (members.map Prod.fst).Nodup) : Ascending ((sortMembers members).map Prod.fst) := by
  induction members with
  | nil => exact .nil
  | cons m rest ih =>
    obtain ⟨k, j⟩ := m
    rw [List.map_cons, List.nodup_cons] at h
    rw [sortMembers]
    refine ascending_insertMember (ih h.2) fun hk => h.1 ?_
    have hkeys := ((perm_sortMembers rest).map Prod.fst).mem_iff.1 hk
    simpa using hkeys

/-- Members with distinct keys have only one ascending order. -/
theorem sortMembers_eq {members sorted : List (String × Json)}
    (h : sorted.Perm (members.map fun m => (m.1, m.2.sortKeys)))
    (hsorted : Ascending (sorted.map Prod.fst)) : sortMembers members = sorted := by
  have hkeys : (members.map Prod.fst).Nodup := by
    have hperm := h.map Prod.fst
    rw [List.map_map] at hperm
    exact hperm.nodup_iff.1 (hsorted.imp String.ne_of_lt)
  have hperm := (perm_sortMembers members).trans h.symm
  refine hperm.eq_of_pairwise (fun m n _ _ hmn hnm => ?_)
    (List.pairwise_map.1 (ascending_sortMembers hkeys)) (List.pairwise_map.1 hsorted)
  exact absurd hnm (String.lt_asymm hmn)

/-- **Sorting puts the keys of all objects into ascending order**, if none repeats a key. -/
theorem EveryObject.sortKeys {j : Json} (h : EveryObject List.Nodup j) :
    EveryObject Ascending j.sortKeys := by
  induction h with
  | null => exact .null
  | bool b => exact .bool b
  | nat n => exact .nat n
  | real => exact .real
  | str s => exact .str s
  | invalid => exact .invalid
  | arr _ ih =>
    rw [Json.sortKeys, sortKeysAll_eq_map]
    exact .arr (List.forall_mem_map.2 ih)
  | @obj members hkeys _ ih =>
    rw [Json.sortKeys]
    refine .obj (ascending_sortMembers hkeys) fun m hm => ?_
    obtain ⟨n, hn, rfl⟩ := List.mem_map.1 ((perm_sortMembers members).mem_iff.1 hm)
    exact ih n hn

/-! ## Fields of a sorted record -/

theorem only?_perm {members members' : List (String × Json)} (h : members.Perm members')
    (key : String) : only? members key = only? members' key := by
  have hfound := h.filter fun m => m.1 == key
  unfold only?
  split
  · rename_i hnil
    rw [hnil] at hfound
    rw [hfound.symm.eq_nil]
  · rename_i m hone
    rw [hone] at hfound
    rw [hfound.symm.eq_singleton]
  · rename_i hnil hone
    have hlen := hfound.length_eq
    split
    · rename_i heq
      rw [heq, List.length_nil, List.length_eq_zero_iff] at hlen
      exact absurd hlen hnil
    · rename_i m heq
      rw [heq, List.length_singleton, List.length_eq_one_iff] at hlen
      obtain ⟨n, hn⟩ := hlen
      exact absurd hn (hone n)
    · rfl

theorem only?_map (f : Json → Json) (members : List (String × Json)) (key : String) :
    only? (members.map fun m => (m.1, f m.2)) key = (only? members key).map (Option.map f) := by
  have hfound : ((members.map fun m => (m.1, f m.2)).filter fun m => m.1 == key) =
      (members.filter fun m => m.1 == key).map fun m => (m.1, f m.2) := by
    rw [List.filter_map]
    rfl
  rw [only?, only?, hfound]
  cases members.filter fun m => m.1 == key with
  | nil => rfl
  | cons m rest => cases rest <;> rfl

theorem only?_sortMembers (members : List (String × Json)) (key : String) :
    only? (sortMembers members) key = (only? members key).map (Option.map sortKeys) := by
  rw [only?_perm (perm_sortMembers members), only?_map]

theorem mapM_map_comm {α β γ : Type} (f : α → Option β) (g : β → γ) (as : List α) :
    (as.mapM fun a => (f a).map g) = (as.mapM f).map (List.map g) := by
  induction as with
  | nil => rfl
  | cons a as ih =>
    rw [List.mapM_cons, List.mapM_cons, ih]
    cases f a with
    | none => rfl
    | some b => cases as.mapM f <;> rfl

/-- The fields of a sorted record are the fields of the record, sorted. -/
theorem fields_sortKeys (names : List String) (j : Json) :
    fields names j.sortKeys = (fields names j).map (List.map (Option.map sortKeys)) := by
  cases j with
  | obj members =>
    rw [sortKeys, fields, fields, ← mapM_map_comm]
    exact congrArg (fun f => names.mapM f) (funext fun key => only?_sortMembers members key)
  | arr items =>
    rw [sortKeys, sortKeysAll_eq_map, fields, fields, List.length_map]
    split
    · simp
    · rfl
  | null | bool | nat | real | str | invalid => rfl

theorem length_of_mapM {α β : Type} {f : α → Option β} {as : List α} {bs : List β}
    (h : as.mapM f = some bs) : bs.length = as.length := by
  induction as generalizing bs with
  | nil =>
    cases h
    rfl
  | cons a as ih =>
    rw [List.mapM_cons] at h
    obtain ⟨b, -, h⟩ := Option.bind_eq_some_iff.1 h
    obtain ⟨rest, hrest, h⟩ := Option.bind_eq_some_iff.1 h
    cases h
    rw [List.length_cons, List.length_cons, ih hrest]

theorem length_of_fields {names : List String} {j : Json} {fs : List (Option Json)}
    (h : fields names j = some fs) : fs.length = names.length := by
  cases j with
  | obj members => exact length_of_mapM h
  | arr items =>
    rw [fields] at h
    split at h
    · cases h
      rw [List.length_append, List.length_map, List.length_replicate]
      omega
    · cases h
  | null | bool | nat | real | str | invalid => cases h

/-! ## Readers that do not see the order of keys -/

section

variable {α : Type} {read : Json → Option α}

/-- The same is read from a value and from the sorted value. -/
def KeyBlind (read : Json → Option α) : Prop := ∀ j, read j.sortKeys = read j

theorem keyBlind_asString : KeyBlind asString := by
  intro j
  cases j <;> rfl

theorem keyBlind_asUInt64 : KeyBlind asUInt64 := by
  intro j
  cases j <;> rfl

namespace KeyBlind

theorem required (h : KeyBlind read) (field : Option Json) :
    Json.required read (field.map sortKeys) = Json.required read field := by
  cases field with
  | none => rfl
  | some j => exact h j

theorem withDefault (h : KeyBlind read) (default : α) (field : Option Json) :
    Json.withDefault default read (field.map sortKeys) = Json.withDefault default read field := by
  cases field with
  | none => rfl
  | some j => exact h j

theorem orNull (h : KeyBlind read) : KeyBlind (orNull read) := by
  intro j
  cases j with
  | null => rfl
  | bool | nat | real | str | arr | obj | invalid => exact congrArg (Option.map some) (h _)

theorem asList (h : KeyBlind read) : KeyBlind (asList read) := by
  intro j
  cases j with
  | arr items =>
    rw [sortKeys, sortKeysAll_eq_map, Json.asList, Json.asList, List.mapM_map]
    exact congrArg (fun f => items.mapM f) (funext h)
  | null | bool | nat | real | str | obj | invalid => rfl

end KeyBlind

/-- A reader of a record is blind to the order of keys if what it makes of the fields is. -/
theorem keyBlind_record {names : List String} {body : List (Option Json) → Option α}
    (h : ∀ fs, fs.length = names.length → body (fs.map (Option.map sortKeys)) = body fs)
    (j : Json) :
    (fields names j.sortKeys).bind body = (fields names j).bind body := by
  rw [fields_sortKeys]
  cases hfs : fields names j with
  | none => rfl
  | some fs => exact h fs (length_of_fields hfs)

end

end Json

end UnitCheck
