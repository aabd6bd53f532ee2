import UnitCheck.Proofs.Json.Record
import UnitCheck.Unit.Basic

/-!
# Rearranging a document

Two documents may differ in the order of the members of their objects, at any depth, and in members
that are not known where they stand.  `Json.Rearranged` says that one document comes from another by
such changes, made at all levels at once.

What is known depends on what a value is read as, which is its `Role`, and in a tagged record also
on the variant that the tag selects: a key that is unknown in one variant is a field of another.  So
the roles of a document's parts are laid out first, in the way a schema does it.

Readers then have to respect rearrangements.  A reader of a record does so if the readers of its
fields do, because the fields of the two records can be matched one by one, whatever form the
records have and wherever their tags stand (`RearrangedIn.untagged`, `RearrangedIn.tagged`).
-/

set_option autoImplicit false

namespace UnitCheck

/-! ## What is read where -/

/-- What a value in the document of a unit is read as. -/
inductive Role where
  /-- A scalar, or a value that is not looked at. -/
  | value
  | list (of : Role)
  | span
  | ty
  | literal
  | expr
  | stmt
  | declaration
  | scope
  | entry
  | unit

namespace Role

/-- The fields of a record in their order, each with what it is read as. -/
abbrev Fields := List (String × Role)

/-- How the values of a role are made up. -/
inductive Layout where
  /-- No record: an array of values of one role. -/
  | list (of : Role)
  | untagged (fields : Fields)
  /-- A record with a tag under this key, and for each tag the fields that go with it. -/
  | tagged (key : String) (variants : List (String × Fields))

end Role

def Ty.Form.fields : Ty.Form → Role.Fields
  | .named => [("name", .value)]
  | .applied => [("container", .ty), ("parameter", .ty)]
  | .lambda => [("params", .list .ty), ("ret", .ty)]

def Literal.Form.fields : Literal.Form → Role.Fields
  | .int => [("value", .value), ("signed", .value), ("length", .value)]
  | .typed => [("value", .value), ("ty", .ty)]

def Expr.Form.fields : Expr.Form → Role.Fields
  | .literal => [("id", .value), ("span", .span), ("literal", .literal)]
  | .lambda => [("id", .value), ("span", .span), ("body", .list .stmt)]
  | .ident => [("id", .value), ("span", .span), ("name", .value)]
  | .call => [("id", .value), ("span", .span), ("receiver", .expr), ("args", .list .expr)]

def Stmt.Form.fields : Stmt.Form → Role.Fields
  | .bind => [("id", .value), ("span", .span), ("name", .value), ("ty", .ty), ("value", .expr)]
  | .eval => [("id", .value), ("span", .span), ("expr", .expr)]
  | .ret => [("id", .value), ("span", .span), ("value", .expr)]

/-- A query may have a type as well, which is not looked at. -/
def Declaration.Form.fields : Declaration.Form → Role.Fields
  | .query => [("span", .span), ("name", .value), ("ty", .value)]
  | .var => [("span", .span), ("name", .value), ("ty", .ty)]
  | .typeName => [("span", .span), ("name", .value), ("ty", .ty)]

namespace Role

/-- The variants that the tags of some forms select. -/
def variants {α : Type} (forms : List (String × α)) (fields : α → Fields) :
    List (String × Fields) :=
  forms.map fun form => (form.1, fields form.2)

def layout : Role → Layout
  | .value => .list .value
  | .list of => .list of
  | .span => .untagged (Span.fieldNames.map fun name => (name, .value))
  | .ty => .tagged "type" (variants Ty.forms Ty.Form.fields)
  | .literal => .tagged "kind" (variants Literal.forms Literal.Form.fields)
  | .expr => .tagged "type" (variants Expr.forms Expr.Form.fields)
  | .stmt => .tagged "type" (variants Stmt.forms Stmt.Form.fields)
  | .declaration => .tagged "kind" (variants Declaration.forms Declaration.Form.fields)
  | .scope => .untagged [("parent", .value), ("declarations", .list .declaration)]
  | .entry => .untagged [("scope", .value), ("expr", .expr)]
  | .unit =>
    .untagged [("file", .value), ("source", .value), ("declarations", .list .declaration),
      ("scopes", .list .scope), ("expressions", .list .entry)]

/-- No field has the key of the tag. -/
theorem key_notMem {r : Role} {key : String} {variants : List (String × Fields)}
    (h : r.layout = .tagged key variants) : ∀ v ∈ variants, key ∉ v.2.map Prod.fst := by
  cases r with
  | ty | literal | expr | stmt | declaration =>
    cases h
    decide
  | value | list | span | scope | entry | unit => cases h

/-- The members that are known in a record: its fields, and in front of them the tag if it has one.
There is no answer for a tag that selects nothing. -/
def known (r : Role) (j : Json) : Option Fields :=
  match r.layout with
  | .list _ => some []
  | .untagged fields => some fields
  | .tagged key variants =>
    (j.tagged key).bind fun (tag, _) =>
      (Json.variant variants true tag).map fun fields => (key, .value) :: fields

/-- The roles of the elements of an array. -/
def elements (r : Role) (items : List Json) : Option (List Role) :=
  match r.layout with
  | .list of => some (items.map fun _ => of)
  | _ => (r.known (.arr items)).map fun fields => fields.map Prod.snd

end Role

namespace Json

/-! ## Rearrangements -/

/-- The second value is the first one with the members of its objects put into other orders, and
with members added to objects where their keys are not known.  What is added denotes something. -/
inductive Rearranged : Role → Json → Json → Prop
  | same (r : Role) (j : Json) : Rearranged r j j
  | arr {r : Role} {roles : List Role} {items items' : List Json}
      (hr : r.elements items = some roles) (hroles : items.length ≤ roles.length)
      (hlen : items.length = items'.length)
      (h : ∀ role i i', (role, i, i') ∈ roles.zip (items.zip items') → Rearranged role i i') :
      Rearranged r (.arr items) (.arr items')
  | obj {r : Role} {known : Role.Fields} {members moved added members' : List (String × Json)}
      (hr : r.known (.obj members) = some known)
      (hkeys : members.map Prod.fst = moved.map Prod.fst)
      (hknown : ∀ m m', (m, m') ∈ members.zip moved →
        ∀ role, (m.1, role) ∈ known → Rearranged role m.2 m'.2)
      (hother : ∀ m m', (m, m') ∈ members.zip moved →
        m.1 ∉ known.map Prod.fst → Rearranged .value m.2 m'.2)
      (hadded : ∀ m ∈ added, m.1 ∉ known.map Prod.fst ∧ m.2.isValue = true)
      (hperm : (moved ++ added).Perm members') :
      Rearranged r (.obj members) (.obj members')

namespace Rearranged

variable {r : Role} {j j' : Json}

theorem exists_of_mem_zip {α β : Type} {as : List α} {bs : List β} (hlen : bs.length ≤ as.length)
    {b : β} (hb : b ∈ bs) : ∃ a, (a, b) ∈ as.zip bs := by
  induction bs generalizing as with
  | nil => cases hb
  | cons c bs ih =>
    cases as with
    | nil => simp at hlen
    | cons a as =>
      rw [List.zip_cons_cons]
      rcases List.mem_cons.1 hb with rfl | hb
      · exact ⟨a, List.mem_cons_self⟩
      · obtain ⟨d, hd⟩ := ih (by simpa using hlen) hb
        exact ⟨d, List.mem_cons_of_mem _ hd⟩

/-- What denotes something still does when it is rearranged. -/
theorem isValue (h : Rearranged r j j') (hj : j.isValue = true) : j'.isValue = true := by
  induction h with
  | same r j => exact hj
  | @arr r roles items items' hr hroles hlen h ih =>
    rw [Json.isValue, areValues_iff] at hj ⊢
    intro i' hi'
    obtain ⟨i, hi⟩ := exists_of_mem_zip (Nat.le_of_eq hlen.symm) hi'
    have hle : (items.zip items').length ≤ roles.length := by
      rw [List.length_zip]
      omega
    obtain ⟨role, hrole⟩ := exists_of_mem_zip hle hi
    exact ih role i i' hrole (hj i (List.of_mem_zip hi).1)
  | @obj r known members moved added members' hr hkeys hknown hother hadded hperm ihknown ihother =>
    rw [Json.isValue, membersAreValues_iff] at hj ⊢
    intro m' hm'
    rcases List.mem_append.1 (hperm.mem_iff.2 hm') with hm' | hm'
    · have hlen : moved.length ≤ members.length := by
        have := congrArg List.length hkeys
        simp only [List.length_map] at this
        omega
      obtain ⟨m, hm⟩ := exists_of_mem_zip hlen hm'
      have hvalue := hj m (List.of_mem_zip hm).1
      by_cases hkey : m.1 ∈ known.map Prod.fst
      · obtain ⟨⟨_, role⟩, hmem, rfl⟩ := List.mem_map.1 hkey
        exact ihknown m m' hm role hmem hvalue
      · exact ihother m m' hm hkey hvalue
    · exact (hadded m' hm').2

/-- Only an array or an object can be rearranged into something else. -/
theorem eq_or_container (h : Rearranged r j j') :
    j' = j ∨ (∃ items items', j = .arr items ∧ j' = .arr items') ∨
      ∃ members members', j = .obj members ∧ j' = .obj members' := by
  cases h with
  | same => exact .inl rfl
  | arr => exact .inr (.inl ⟨_, _, rfl, rfl⟩)
  | obj => exact .inr (.inr ⟨_, _, rfl, rfl⟩)

/-- A tag that selects something is not changed. -/
theorem eq_of_variant {α : Type} {forms : List (String × α)} {inner : Bool} {a : α}
    (h : Rearranged r j j') (hj : variant forms inner j = some a) : j' = j := by
  rcases h.eq_or_container with rfl | ⟨items, items', rfl, rfl⟩ | ⟨members, members', rfl, rfl⟩
  · rfl
  · cases hj
  · cases hj

end Rearranged

/-! ## Members and elements that match -/

/-- A member of an object and what has become of it. -/
structure MemberRearranged (known : Role.Fields) (m m' : String × Json) : Prop where
  key_eq : m.1 = m'.1
  inRole : ∀ role, (m.1, role) ∈ known → Rearranged role m.2 m'.2
  other : m.1 ∉ known.map Prod.fst → Rearranged .value m.2 m'.2

theorem MemberRearranged.refl (known : Role.Fields) (m : String × Json) :
    MemberRearranged known m m :=
  ⟨rfl, fun role _ => .same role m.2, fun _ => .same .value m.2⟩

theorem MemberRearranged.isValue {known : Role.Fields} {m m' : String × Json}
    (h : MemberRearranged known m m') (hm : m.2.isValue = true) : m'.2.isValue = true := by
  by_cases hkey : m.1 ∈ known.map Prod.fst
  · obtain ⟨⟨_, role⟩, hmem, rfl⟩ := List.mem_map.1 hkey
    exact (h.inRole role hmem).isValue hm
  · exact (h.other hkey).isValue hm

/-- The members of an object and what has become of them, those that were added included. -/
def MembersRearranged (known : Role.Fields) (members members' : List (String × Json)) : Prop :=
  ∃ moved added, List.Forall₂ (MemberRearranged known) members moved ∧
    (∀ m ∈ added, m.1 ∉ known.map Prod.fst ∧ m.2.isValue = true) ∧
    (moved ++ added).Perm members'

/-- Under the keys of some kind all members denote something, if they did. -/
theorem MembersRearranged.isValue {known : Role.Fields} {members members' : List (String × Json)}
    (h : MembersRearranged known members members') (p : String → Bool)
    (hmembers : ∀ m ∈ members, p m.1 = true → m.2.isValue = true) :
    ∀ m' ∈ members', p m'.1 = true → m'.2.isValue = true := by
  obtain ⟨moved, added, hmoved, hadded, hperm⟩ := h
  intro m' hm' hp
  rcases List.mem_append.1 (hperm.mem_iff.2 hm') with hm' | hm'
  · obtain ⟨m, hm, hmatch⟩ := exists_of_forall₂ hmoved hm'
    exact hmatch.isValue (hmembers m hm (hmatch.key_eq ▸ hp))
  · exact (hadded m' hm').2

namespace Rearranged

variable {r : Role} {j' : Json}

theorem map_fst_eq_iff {members moved : List (String × Json)} :
    members.map Prod.fst = moved.map Prod.fst ↔
      List.Forall₂ (fun m m' : String × Json => m.1 = m'.1) members moved := by
  rw [← List.forall₂_eq_eq_eq, List.forall₂_map_left_iff, List.forall₂_map_right_iff]

theorem exists_members {known : Role.Fields} {members : List (String × Json)}
    (h : Rearranged r (.obj members) j') (hr : r.known (.obj members) = some known) :
    ∃ members', j' = .obj members' ∧ MembersRearranged known members members' := by
  cases h with
  | same =>
    have hmoved : List.Forall₂ (MemberRearranged known) members members :=
      List.forall₂_same.2 fun m _ => .refl known m
    exact ⟨members, rfl, members, [], hmoved, by simp, by simp⟩
  | @obj _ known' _ moved added members' hr' hkeys hknown hother hadded hperm =>
    obtain rfl : known' = known := Option.some.inj (hr'.symm.trans hr)
    refine ⟨members', rfl, moved, added, ?_, hadded, hperm⟩
    rw [map_fst_eq_iff, List.forall₂_iff_zip] at hkeys
    rw [List.forall₂_iff_zip]
    exact ⟨hkeys.1, fun hm => ⟨hkeys.2 hm, hknown _ _ hm, hother _ _ hm⟩⟩

theorem of_members (known : Role.Fields) {members members' : List (String × Json)}
    (moved added : List (String × Json)) (hr : r.known (.obj members) = some known)
    (hmoved : List.Forall₂ (MemberRearranged known) members moved)
    (hadded : ∀ m ∈ added, m.1 ∉ known.map Prod.fst ∧ m.2.isValue = true)
    (hperm : (moved ++ added).Perm members') : Rearranged r (.obj members) (.obj members') := by
  have hkeys := map_fst_eq_iff.2 (hmoved.imp fun m m' hm => hm.key_eq)
  rw [List.forall₂_iff_zip] at hmoved
  exact .obj hr hkeys (fun m m' hm => (hmoved.2 hm).inRole) (fun m m' hm => (hmoved.2 hm).other)
    hadded hperm

theorem of_items {items items' : List Json} (h : List.Forall₂ (Rearranged r) items items') :
    Rearranged (.list r) (.arr items) (.arr items') := by
  rw [List.forall₂_iff_zip] at h
  refine .arr rfl (by simp) h.1 fun role i i' hmem => ?_
  obtain ⟨hrole, hi⟩ := List.of_mem_zip hmem
  obtain ⟨_, _, rfl⟩ := List.mem_map.1 hrole
  exact h.2 hi

theorem exists_items {roles : List Role} {items : List Json} (h : Rearranged r (.arr items) j')
    (hr : r.elements items = some roles) :
    ∃ items', j' = .arr items' ∧ items.length = items'.length ∧
      ∀ role i i', (role, i, i') ∈ roles.zip (items.zip items') → Rearranged role i i' := by
  cases h with
  | same =>
    refine ⟨items, rfl, rfl, fun role i i' hmem => ?_⟩
    have hsame : List.Forall₂ (fun i i' : Json => i = i') items items := List.forall₂_refl items
    rw [List.forall₂_zip hsame (List.of_mem_zip hmem).2]
    exact .same role i'
  | @arr _ roles' _ items' hr' _ hlen h =>
    obtain rfl : roles' = roles := Option.some.inj (hr'.symm.trans hr)
    exact ⟨items', rfl, hlen, h⟩

end Rearranged

/-! ## Fields that match -/

/-- Rearranged into something that nests at most `n` deep. -/
def RearrangedIn (n : Nat) (r : Role) (j j' : Json) : Prop := Rearranged r j j' ∧ j'.depth ≤ n

/-- The fields of a record and what has become of them. -/
inductive FieldsRearranged (n : Nat) :
    Role.Fields → List (Option Json) → List (Option Json) → Prop
  | nil : FieldsRearranged n [] [] []
  | cons {name : String} {role : Role} {fields : Role.Fields} {f f' : Option Json}
      {fs fs' : List (Option Json)} (h : Option.Rel (RearrangedIn n role) f f')
      (hs : FieldsRearranged n fields fs fs') :
      FieldsRearranged n ((name, role) :: fields) (f :: fs) (f' :: fs')

/-- A record and what has become of it, as far as these fields go. -/
def RecordRearranged (n : Nat) (record : Role.Fields) (j j' : Json) : Prop :=
  ∀ fs, Json.fields (record.map Prod.fst) j = some fs →
    ∃ fs', Json.fields (record.map Prod.fst) j' = some fs' ∧ FieldsRearranged n record fs fs'

section

variable {n : Nat} {known record : Role.Fields} {members members' : List (String × Json)}

/-- **A known key has the value that it had**, rearranged, or still none. -/
theorem MembersRearranged.only? (h : MembersRearranged known members members')
    (hdepth : ∀ m ∈ members', m.2.depth ≤ n) {key : String} {role : Role}
    (hkey : (key, role) ∈ known) {f : Option Json} (hf : only? members key = some f) :
    ∃ f', only? members' key = some f' ∧ Option.Rel (RearrangedIn n role) f f' := by
  obtain ⟨moved, added, hmoved, hadded, hperm⟩ := h
  have hnone : added.filter (fun m => m.1 == key) = [] := by
    refine filter_key_eq_nil fun hmem => ?_
    obtain ⟨m, hm, rfl⟩ := List.mem_map.1 hmem
    exact (hadded m hm).1 (List.mem_map.2 ⟨_, hkey, rfl⟩)
  have hfound : (moved.filter fun m => m.1 == key).Perm (members'.filter fun m => m.1 == key) := by
    have hfilter := hperm.filter fun m => m.1 == key
    rwa [List.filter_append, hnone, List.append_nil] at hfilter
  have hmatch : List.Forall₂ (MemberRearranged known) (members.filter fun m => m.1 == key)
      (moved.filter fun m => m.1 == key) :=
    List.rel_filter (fun m m' hm => by simp only [hm.key_eq]) hmoved
  unfold Json.only? at hf ⊢
  split at hf
  · rename_i hnil
    cases hf
    rw [hnil, List.forall₂_nil_left_iff] at hmatch
    rw [hmatch] at hfound
    rw [hfound.symm.eq_nil]
    exact ⟨none, rfl, .none⟩
  · rename_i m hone
    cases hf
    rw [hone, List.forall₂_cons_left_iff] at hmatch
    obtain ⟨m', rest, hm, hrest, hmatch⟩ := hmatch
    rw [List.forall₂_nil_left_iff] at hrest
    rw [hmatch, hrest] at hfound
    -- the only member of this key before is the only one after
    have hm' := hfound.symm.eq_singleton
    have hmem : m' ∈ members' := List.mem_of_mem_filter (hm' ▸ List.mem_singleton_self m')
    have hkey' : m.1 = key := by
      have : m ∈ members.filter fun m => m.1 == key := hone ▸ List.mem_singleton_self m
      exact eq_of_beq (List.mem_filter.1 this).2
    rw [hm']
    exact ⟨some m'.2, rfl, .some ⟨hm.inRole role (hkey' ▸ hkey), hdepth m' hmem⟩⟩
  · cases hf

theorem MembersRearranged.toRecord (h : MembersRearranged known members members')
    (hdepth : ∀ m ∈ members', m.2.depth ≤ n) (hsub : ∀ p ∈ record, p ∈ known) :
    RecordRearranged n record (.obj members) (.obj members') := by
  intro fs hfs
  rw [fields] at hfs ⊢
  induction record generalizing fs with
  | nil =>
    cases hfs
    exact ⟨[], rfl, .nil⟩
  | cons p record ih =>
    rw [List.map_cons, List.mapM_cons] at hfs
    obtain ⟨f, hf, hfs⟩ := Option.bind_eq_some_iff.1 hfs
    obtain ⟨rest, hrest, hfs⟩ := Option.bind_eq_some_iff.1 hfs
    cases hfs
    obtain ⟨f', hf', hmatch⟩ := h.only? hdepth (hsub p List.mem_cons_self) hf
    obtain ⟨rest', hrest', hmatches⟩ :=
      ih (fun q hq => hsub q (List.mem_cons_of_mem p hq)) rest hrest
    refine ⟨f' :: rest', ?_, .cons hmatch hmatches⟩
    rw [List.map_cons, List.mapM_cons, hf', hrest']
    rfl

/-- The elements of an array are the fields in their order, and those that are left out match. -/
theorem fieldsRearranged_of_zip {items items' : List Json} (hlen : items.length = items'.length)
    (hle : items.length ≤ record.length) (hdepth : ∀ i ∈ items', i.depth ≤ n)
    (h : ∀ role i i', (role, i, i') ∈ (record.map Prod.snd).zip (items.zip items') →
      Rearranged role i i') :
    FieldsRearranged n record
      (items.map some ++ List.replicate (record.length - items.length) none)
      (items'.map some ++ List.replicate (record.length - items'.length) none) := by
  induction record generalizing items items' with
  | nil =>
    obtain rfl : items = [] := List.eq_nil_of_length_eq_zero (Nat.le_zero.1 hle)
    obtain rfl : items' = [] := List.eq_nil_of_length_eq_zero hlen.symm
    exact .nil
  | cons field record ih =>
    obtain ⟨name, role⟩ := field
    cases items with
    | nil =>
      obtain rfl : items' = [] := List.eq_nil_of_length_eq_zero hlen.symm
      have hrest := ih hlen (Nat.zero_le _) hdepth (by simp)
      simpa [List.replicate_succ] using FieldsRearranged.cons .none hrest
    | cons i items =>
      cases items' with
      | nil => cases hlen
      | cons i' items' =>
        simp only [List.map_cons, List.zip_cons_cons, List.mem_cons] at h
        have hi : RearrangedIn n role i i' :=
          ⟨h role i i' (.inl rfl), hdepth i' List.mem_cons_self⟩
        have hrest := ih (by simpa using hlen) (by simpa using hle)
          (fun k hk => hdepth k (List.mem_cons_of_mem i' hk))
          fun role k k' hk => h role k k' (.inr hk)
        simpa using FieldsRearranged.cons (.some hi) hrest

theorem recordRearranged_arr {items items' : List Json} (hlen : items.length = items'.length)
    (hdepth : ∀ i ∈ items', i.depth ≤ n)
    (h : ∀ role i i', (role, i, i') ∈ (record.map Prod.snd).zip (items.zip items') →
      Rearranged role i i') :
    RecordRearranged n record (.arr items) (.arr items') := by
  intro fs hfs
  rw [fields, List.length_map] at hfs ⊢
  split at hfs
  · rename_i hle
    cases hfs
    rw [if_pos (hlen ▸ hle)]
    exact ⟨_, rfl, fieldsRearranged_of_zip hlen hle hdepth h⟩
  · cases hfs

end

/-! ## Records -/

theorem only?_filter {members : List (String × Json)} {p : String × Json → Bool} {key : String}
    (hp : ∀ j, p (key, j) = true) : only? (members.filter p) key = only? members key := by
  have hfilter : (members.filter p).filter (fun m => m.1 == key) =
      members.filter fun m => m.1 == key := by
    rw [List.filter_filter]
    refine List.filter_congr fun m _ => ?_
    obtain ⟨k, j⟩ := m
    by_cases hkey : k = key
    · rw [hkey, hp j, Bool.and_true]
    · rw [beq_false_of_ne hkey, Bool.false_and]
  rw [only?, hfilter, only?]

/-- Fields are found as well among some of the members, if none with their names is left out. -/
theorem fields_filter {members : List (String × Json)} {p : String × Json → Bool}
    {names : List String} (hp : ∀ name ∈ names, ∀ j, p (name, j) = true) :
    fields names (.obj (members.filter p)) = fields names (.obj members) := by
  rw [fields, fields]
  induction names with
  | nil => rfl
  | cons name names ih =>
    rw [List.mapM_cons, List.mapM_cons, only?_filter (hp name List.mem_cons_self),
      ih fun name hname => hp name (List.mem_cons_of_mem _ hname)]

theorem RecordRearranged.filter {n : Nat} {record : Role.Fields}
    {members members' : List (String × Json)} {p : String × Json → Bool}
    (h : RecordRearranged n record (.obj members) (.obj members'))
    (hp : ∀ name ∈ record.map Prod.fst, ∀ j, p (name, j) = true) :
    RecordRearranged n record (.obj (members.filter p)) (.obj (members'.filter p)) := by
  rw [RecordRearranged, fields_filter hp, fields_filter hp]
  exact h

theorem tagged_obj_eq_some_iff {members : List (String × Json)} {key : String} {tag body : Json} :
    tagged key (.obj members) = some (tag, body) ↔
      only? members key = some (some tag) ∧ body = .obj (members.filter fun m => m.1 != key) := by
  rw [tagged, only?]
  cases members.filter fun m => m.1 == key with
  | nil => simp
  | cons m rest =>
    cases rest with
    | nil =>
      simp only [Option.some.injEq, Prod.mk.injEq]
      exact and_congr_right' eq_comm
    | cons m' rest => simp

theorem mem_of_variant {α : Type} {forms : List (String × α)} {inner : Bool} {tag : Json} {form : α}
    (h : variant forms inner tag = some form) : ∃ name, (name, form) ∈ forms := by
  cases tag with
  | str s =>
    obtain ⟨before, after, rfl, -⟩ := List.lookup_eq_some_iff.1 h
    exact ⟨s, by simp⟩
  | nat n =>
    cases inner with
    | false => cases h
    | true =>
      obtain ⟨first, hfirst, rfl⟩ := Option.map_eq_some_iff.1 h
      exact ⟨first.1, List.mem_of_getElem? hfirst⟩
  | null | bool | real | arr | obj | invalid => cases h

namespace RearrangedIn

variable {n : Nat} {r : Role} {record : Role.Fields} {j j' : Json}

/-- **The fields of a record without a tag match.** -/
theorem untagged (h : RearrangedIn n r j j') (hr : r.layout = .untagged record) :
    RecordRearranged (n - 1) record j j' := by
  obtain ⟨h, hdepth⟩ := h
  cases j with
  | obj members =>
    have hknown : r.known (.obj members) = some record := by rw [Role.known, hr]
    obtain ⟨members', rfl, hmembers⟩ := h.exists_members hknown
    rw [depth] at hdepth
    exact hmembers.toRecord (memberDepths_le_iff.1 (by omega)) fun p hp => hp
  | arr items =>
    have hroles : r.elements items = some (record.map Prod.snd) := by
      rw [Role.elements, Role.known, hr]
      rfl
    obtain ⟨items', rfl, hlen, hitems⟩ := h.exists_items hroles
    rw [depth] at hdepth
    exact recordRearranged_arr hlen (depths_le_iff.1 (by omega)) hitems
  | null | bool | nat | real | str | invalid =>
    intro fs hfs
    cases hfs

/-- **The tag of a record stays, and the fields that go with it match**, wherever the tag stands. -/
theorem tagged {key : String} {variants : List (String × Role.Fields)} {tag body : Json}
    (h : RearrangedIn n r j j') (hr : r.layout = .tagged key variants)
    (htag : j.tagged key = some (tag, body)) (hv : variant variants true tag = some record) :
    ∃ body', j'.tagged key = some (tag, body') ∧ RecordRearranged (n - 1) record body body' := by
  obtain ⟨h, hdepth⟩ := h
  have hknown : r.known j = some ((key, .value) :: record) := by
    rw [Role.known, hr]
    simp [htag, hv]
  cases j with
  | obj members =>
    obtain ⟨members', rfl, hmembers⟩ := h.exists_members hknown
    have hdepth' : ∀ m ∈ members', m.2.depth ≤ n - 1 := by
      rw [depth] at hdepth
      exact memberDepths_le_iff.1 (by omega)
    obtain ⟨honly, rfl⟩ := tagged_obj_eq_some_iff.1 htag
    obtain ⟨f', honly', htag'⟩ := hmembers.only? hdepth' List.mem_cons_self honly
    obtain ⟨htag'⟩ := htag'
    refine ⟨_, tagged_obj_eq_some_iff.2 ⟨?_, rfl⟩, ?_⟩
    · rw [honly', htag'.1.eq_of_variant hv]
    · refine (hmembers.toRecord hdepth' fun p hp => List.mem_cons_of_mem _ hp).filter ?_
      -- the body lacks the tag only, and no field has its key
      intro name hname j
      rw [bne_iff_ne]
      rintro rfl
      obtain ⟨s, hs⟩ := mem_of_variant hv
      exact Role.key_notMem hr (s, record) hs hname
  | arr items =>
    cases items with
    | nil => cases htag
    | cons first items =>
      cases htag
      have hroles : r.elements (tag :: items) = some (.value :: record.map Prod.snd) := by
        rw [Role.elements, hknown, hr]
        rfl
      obtain ⟨items', rfl, hlen, hitems⟩ := h.exists_items hroles
      cases items' with
      | nil => cases hlen
      | cons tag' items' =>
        simp only [List.zip_cons_cons, List.mem_cons] at hitems
        obtain rfl : tag' = tag := (hitems .value tag tag' (.inl rfl)).eq_of_variant hv
        have hdepth' : ∀ i ∈ items', i.depth ≤ n - 1 := by
          rw [depth, depths_cons] at hdepth
          exact depths_le_iff.1 (by omega)
        exact ⟨_, rfl, recordRearranged_arr (by simpa using hlen) hdepth'
          fun role i i' hi => hitems role i i' (.inr hi)⟩
  | null | bool | nat | real | str | invalid => cases htag

/-- The elements of a list match. -/
theorem exists_list {items : List Json} (h : RearrangedIn n (.list r) (.arr items) j') :
    ∃ items', j' = .arr items' ∧ List.Forall₂ (RearrangedIn (n - 1) r) items items' := by
  obtain ⟨h, hdepth⟩ := h
  have hroles : (Role.list r).elements items = some (items.map fun _ => r) := rfl
  obtain ⟨items', rfl, hlen, hitems⟩ := h.exists_items hroles
  refine ⟨items', rfl, List.forall₂_iff_zip.2 ⟨hlen, fun {i i'} hi => ?_⟩⟩
  have hle : (items.zip items').length ≤ (items.map fun _ => r).length := by
    rw [List.length_zip, List.length_map]
    omega
  obtain ⟨role, hrole⟩ := Rearranged.exists_of_mem_zip hle hi
  obtain ⟨_, _, rfl⟩ := List.mem_map.1 (List.of_mem_zip hrole).1
  have hlt := depth_lt_arr (List.of_mem_zip hi).2
  exact ⟨hitems _ i i' hrole, by omega⟩

end RearrangedIn

end Json

end UnitCheck
