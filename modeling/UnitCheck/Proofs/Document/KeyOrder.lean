import UnitCheck.Proofs.Document.Rearranged
import UnitCheck.Proofs.Json.RoundTrip

/-!
# Key order and unknown keys

In the document of a unit the order of the members of an object carries no meaning, and neither do
members that are not known where they stand.  `CompilationUnit.parse_rearranged` says so of all
rearrangements of a document, made at all of its levels at once.

Every reader is shown to respect rearrangement: what it reads from a value it also reads from the
rearranged one (`Json.Respects`).  A reader that takes a record apart does so if the readers of the
fields do (`RecordRearranged.kept`), with a tag for each of its forms (`RearrangedIn.kept_form`), so
that the proof of a reader goes through its fields in their order.

Two readers depend on how deep a value nests.  An expression and the members of a declaration that
are not its own are taken in as a whole before anything is read from them, so that members added to
them, though they are passed over later, must denote something and leave enough room.
-/

set_option autoImplicit false

namespace UnitCheck

namespace Json

/-! ## Results that are kept -/

section

variable {α β : Type} {x y : Option α}

/-- What the first reading gives, if it gives anything, the second one gives too. -/
def Kept (x y : Option α) : Prop := ∀ a, x = some a → y = some a

theorem Kept.refl (x : Option α) : Kept x x := fun _ h => h

theorem Kept.bind (h : Kept x y) {f g : α → Option β} (hf : ∀ a, Kept (f a) (g a)) :
    Kept (x.bind f) (y.bind g) := by
  intro b hb
  obtain ⟨a, ha, hb⟩ := Option.bind_eq_some_iff.1 hb
  exact Option.bind_eq_some_iff.2 ⟨a, h a ha, hf a b hb⟩

theorem Kept.map (h : Kept x y) (f : α → β) : Kept (x.map f) (y.map f) := by
  intro b hb
  obtain ⟨a, ha, rfl⟩ := Option.map_eq_some_iff.1 hb
  exact Option.map_eq_some_iff.2 ⟨a, h a ha, rfl⟩

end

/-! ## Readers that respect rearrangement -/

section

variable {α : Type} {n : Nat} {r : Role} {read : Json → Option α}

/-- What is read from a value is also read from every rearrangement of it that nests at most `n`
deep. -/
def Respects (n : Nat) (r : Role) (read : Json → Option α) : Prop :=
  ∀ j j', RearrangedIn n r j j' → Kept (read j) (read j')

/-- Scalars are not rearranged. -/
theorem respects_of_scalar (harr : ∀ items, read (.arr items) = none)
    (hobj : ∀ members, read (.obj members) = none) : Respects n r read := by
  intro j j' hj a ha
  rcases hj.1.eq_or_container with rfl | ⟨items, items', rfl, -⟩ | ⟨members, members', rfl, -⟩
  · exact ha
  · rw [harr] at ha
    cases ha
  · rw [hobj] at ha
    cases ha

theorem respects_asString : Respects n r asString := respects_of_scalar (fun _ => rfl) fun _ => rfl

theorem respects_asBool : Respects n r asBool := respects_of_scalar (fun _ => rfl) fun _ => rfl

theorem respects_asUInt32 : Respects n r asUInt32 := respects_of_scalar (fun _ => rfl) fun _ => rfl

theorem respects_asUInt64 : Respects n r asUInt64 := respects_of_scalar (fun _ => rfl) fun _ => rfl

namespace Respects

variable {f f' : Option Json}

theorem required (h : Respects n r read) (hf : Option.Rel (RearrangedIn n r) f f') :
    Kept (Json.required read f) (Json.required read f') := by
  cases hf with
  | none => exact .refl none
  | some hj => exact h _ _ hj

theorem withDefault (h : Respects n r read) {default : α}
    (hf : Option.Rel (RearrangedIn n r) f f') :
    Kept (Json.withDefault default read f) (Json.withDefault default read f') := by
  cases hf with
  | none => exact .refl (some default)
  | some hj => exact h _ _ hj

theorem orNull (h : Respects n r read) : Respects n r (Json.orNull read) := by
  intro j j' hj
  rcases hj.1.eq_or_container with rfl | ⟨items, items', rfl, rfl⟩ | ⟨members, members', rfl, rfl⟩
  · exact .refl _
  · exact (h _ _ hj).map some
  · exact (h _ _ hj).map some

theorem mapM (h : Respects n r read) {items items' : List Json}
    (hitems : List.Forall₂ (RearrangedIn n r) items items') :
    Kept (items.mapM read) (items'.mapM read) := by
  induction hitems with
  | nil => exact .refl _
  | cons hj _ ih =>
    rw [List.mapM_cons, List.mapM_cons]
    exact (h _ _ hj).bind fun a => ih.bind fun as => .refl _

theorem asList (h : Respects (n - 1) r read) : Respects n (.list r) (Json.asList read) := by
  intro j j' hj
  cases j with
  | arr items =>
    obtain ⟨items', rfl, hitems⟩ := hj.exists_list
    exact h.mapM hitems
  | null | bool | nat | real | str | obj | invalid =>
    intro as has
    cases has

end Respects

end

/-! ## Readers of records -/

section

variable {α β : Type} {n : Nat} {r : Role} {j j' : Json}

/-- A reader of a record respects rearrangement if what it makes of the fields does. -/
theorem RecordRearranged.kept {record : Role.Fields} {names : List String}
    {f g : List (Option Json) → Option β} (h : RecordRearranged n record j j')
    (hnames : record.map Prod.fst = names)
    (hf : ∀ fs fs', FieldsRearranged n record fs fs' → Kept (f fs) (g fs')) :
    Kept ((fields names j).bind f) ((fields names j').bind g) := by
  subst hnames
  intro b hb
  obtain ⟨fs, hfs, hb⟩ := Option.bind_eq_some_iff.1 hb
  obtain ⟨fs', hfs', hmatch⟩ := h fs hfs
  exact Option.bind_eq_some_iff.2 ⟨fs', hfs', hf fs fs' hmatch b hb⟩

/-- A tag selects the fields of the form that it names. -/
theorem variant_variants {forms : List (String × α)} {fields : α → Role.Fields} {inner : Bool}
    {tag : Json} {form : α} (h : variant forms inner tag = some form) :
    variant (Role.variants forms fields) true tag = some (fields form) := by
  cases tag with
  | str s =>
    rw [variant] at h ⊢
    induction forms with
    | nil => cases h
    | cons first forms ih =>
      rw [Role.variants, List.map_cons]
      rw [List.lookup_cons] at h ⊢
      split at h
      · cases h
        rfl
      · exact ih h
  | nat n =>
    cases inner with
    | false => cases h
    | true =>
      obtain ⟨first, hfirst, rfl⟩ := Option.map_eq_some_iff.1 h
      simp [variant, Role.variants, hfirst]
  | null | bool | real | arr | obj | invalid => cases h

/-- A reader of a tagged record respects rearrangement if, for every form, what it makes of the
fields of that form does. -/
theorem RearrangedIn.kept_form {forms : List (String × α)} {fields : α → Role.Fields} {key : String}
    {inner : Bool} {f : α → Json → Option β} {g : Json × Json → Option β}
    (h : RearrangedIn n r j j') (hr : r.layout = .tagged key (Role.variants forms fields))
    (hg : ∀ tag body, g (tag, body) = (variant forms inner tag).bind fun form => f form body)
    (hf : ∀ form body body', RecordRearranged (n - 1) (fields form) body body' →
      Kept (f form body) (f form body')) :
    Kept ((j.tagged key).bind g) ((j'.tagged key).bind g) := by
  intro b hb
  obtain ⟨⟨tag, body⟩, htag, hb⟩ := Option.bind_eq_some_iff.1 hb
  rw [hg] at hb
  obtain ⟨form, hform, hb⟩ := Option.bind_eq_some_iff.1 hb
  obtain ⟨body', htag', hbody⟩ := h.tagged hr htag (variant_variants hform)
  rw [htag', Option.bind_some, hg, hform]
  exact hf form body body' hbody b hb

end

end Json

open Json (Kept Plain Rearranged RearrangedIn Respects respects_asString respects_asBool
  respects_asUInt32 respects_asUInt64)

/-! ## Spans, types and literals -/

theorem Span.respects_ofJson? (n : Nat) : Respects n .span Span.ofJson? := by
  intro j j' hj
  refine (hj.untagged rfl).kept (by rfl) ?_
  rintro _ _ (_ | ⟨hfile, _ | ⟨hstart, _ | ⟨hstop, _ | ⟨hstartLine, _ | ⟨hstartCol, _ | ⟨hendLine,
    _ | ⟨hendCol, ⟨⟩⟩⟩⟩⟩⟩⟩⟩)
  refine (respects_asString.withDefault hfile).bind fun _ => ?_
  refine (respects_asUInt64.withDefault hstart).bind fun _ => ?_
  refine (respects_asUInt64.withDefault hstop).bind fun _ => ?_
  refine (respects_asUInt64.withDefault hstartLine).bind fun _ => ?_
  refine (respects_asUInt64.withDefault hstartCol).bind fun _ => ?_
  refine (respects_asUInt64.withDefault hendLine).bind fun _ => ?_
  exact (respects_asUInt64.withDefault hendCol).bind fun _ => .refl _

theorem Ty.respects_decode (room n : Nat) (inner : Bool) : Respects n .ty (decode room inner) := by
  induction room generalizing n inner with
  | zero => exact fun _ _ _ => .refl none
  | succ room ih =>
    intro j j' hj
    rw [decode, decode]
    refine hj.kept_form rfl (fun _ _ => rfl) fun form body body' hbody => ?_
    cases form with
    | named =>
      refine hbody.kept rfl ?_
      rintro _ _ (_ | ⟨hname, ⟨⟩⟩)
      exact (respects_asString.required hname).bind fun _ => .refl _
    | applied =>
      refine hbody.kept rfl ?_
      rintro _ _ (_ | ⟨hcontainer, _ | ⟨hparameter, ⟨⟩⟩⟩)
      refine ((ih _ true).required hcontainer).bind fun _ => ?_
      exact ((ih _ true).required hparameter).bind fun _ => .refl _
    | lambda =>
      refine hbody.kept rfl ?_
      rintro _ _ (_ | ⟨hparams, _ | ⟨hresult, ⟨⟩⟩⟩)
      refine ((Respects.asList (ih _ true)).required hparams).bind fun _ => ?_
      exact ((ih _ true).required hresult).bind fun _ => .refl _

theorem Literal.respects_decode (room n : Nat) (inner : Bool) :
    Respects n .literal (decode room inner) := by
  intro j j' hj
  refine hj.kept_form rfl (fun _ _ => rfl) fun form body body' hbody => ?_
  cases form with
  | int =>
    refine hbody.kept rfl ?_
    rintro _ _ (_ | ⟨htext, _ | ⟨hsigned, _ | ⟨hlength, ⟨⟩⟩⟩⟩)
    refine (respects_asString.required htext).bind fun _ => ?_
    refine (respects_asBool.required hsigned).bind fun _ => ?_
    exact (respects_asUInt32.withDefault hlength).bind fun _ => .refl _
  | typed =>
    refine hbody.kept rfl ?_
    rintro _ _ (_ | ⟨htext, _ | ⟨hty, ⟨⟩⟩⟩)
    refine (respects_asString.required htext).bind fun _ => ?_
    exact ((Ty.respects_decode room _ true).required hty).bind fun _ => .refl _

/-! ## Trees -/

section

variable {n : Nat} {id id' span span' : Option Json}

theorem NodeId.kept_ofField? (h : Option.Rel (RearrangedIn n .value) id id') :
    Kept (NodeId.ofField? id) (NodeId.ofField? id') := by
  cases h with
  | none => exact .refl _
  | some hj => exact (respects_asUInt64 _ _ hj).map _

theorem Span.kept_ofField? (h : Option.Rel (RearrangedIn n .span) span span') :
    Kept (Span.ofField? span) (Span.ofField? span') :=
  (Span.respects_ofJson? n).withDefault h

theorem Site.kept_decode (hid : Option.Rel (RearrangedIn n .value) id id')
    (hspan : Option.Rel (RearrangedIn n .span) span span') :
    Kept (Site.decode id span) (Site.decode id' span') :=
  (NodeId.kept_ofField? hid).bind fun _ => (Span.kept_ofField? hspan).bind fun _ => .refl _

end

/-- Readers of trees with this much room respect rearrangement. -/
structure DecodesRearranged (room : Nat) : Prop where
  expr : ∀ (n : Nat) (inner : Bool), Respects n .expr (Expr.decode room inner)
  stmt : ∀ (n : Nat) (inner : Bool), Respects n .stmt (Stmt.decode room inner)

namespace DecodesRearranged

variable {room : Nat}

theorem succ_expr (ih : DecodesRearranged room) (n : Nat) (inner : Bool) :
    Respects n .expr (Expr.decode (room + 1) inner) := by
  intro j j' hj
  rw [Expr.decode, Expr.decode]
  refine hj.kept_form rfl (fun _ _ => rfl) fun form body body' hbody => ?_
  cases form with
  | literal =>
    refine hbody.kept rfl ?_
    rintro _ _ (_ | ⟨hid, _ | ⟨hspan, _ | ⟨hvalue, ⟨⟩⟩⟩⟩)
    refine (Site.kept_decode hid hspan).bind fun _ => ?_
    exact ((Literal.respects_decode room _ true).required hvalue).bind fun _ => .refl _
  | lambda =>
    refine hbody.kept rfl ?_
    rintro _ _ (_ | ⟨hid, _ | ⟨hspan, _ | ⟨hstmts, ⟨⟩⟩⟩⟩)
    refine (Site.kept_decode hid hspan).bind fun _ => ?_
    exact ((Respects.asList (ih.stmt _ true)).required hstmts).bind fun _ => .refl _
  | ident =>
    refine hbody.kept rfl ?_
    rintro _ _ (_ | ⟨hid, _ | ⟨hspan, _ | ⟨hname, ⟨⟩⟩⟩⟩)
    refine (Site.kept_decode hid hspan).bind fun _ => ?_
    exact (respects_asString.required hname).bind fun _ => .refl _
  | call =>
    refine hbody.kept rfl ?_
    rintro _ _ (_ | ⟨hid, _ | ⟨hspan, _ | ⟨hreceiver, _ | ⟨hargs, ⟨⟩⟩⟩⟩⟩)
    refine (Site.kept_decode hid hspan).bind fun _ => ?_
    refine ((ih.expr _ true).required hreceiver).bind fun _ => ?_
    exact ((Respects.asList (ih.expr _ true)).withDefault hargs).bind fun _ => .refl _

theorem succ_stmt (ih : DecodesRearranged room) (n : Nat) (inner : Bool) :
    Respects n .stmt (Stmt.decode (room + 1) inner) := by
  intro j j' hj
  rw [Stmt.decode, Stmt.decode]
  refine hj.kept_form rfl (fun _ _ => rfl) fun form body body' hbody => ?_
  cases form with
  | bind =>
    refine hbody.kept rfl ?_
    rintro _ _ (_ | ⟨hid, _ | ⟨hspan, _ | ⟨hname, _ | ⟨hty, _ | ⟨hvalue, ⟨⟩⟩⟩⟩⟩⟩)
    refine (NodeId.kept_ofField? hid).bind fun _ => ?_
    refine (Span.kept_ofField? hspan).bind fun _ => ?_
    refine (respects_asString.required hname).bind fun _ => ?_
    refine ((Ty.respects_decode room _ true).orNull.withDefault hty).bind fun _ => ?_
    exact ((ih.expr _ true).orNull.withDefault hvalue).bind fun _ => .refl _
  | eval =>
    refine hbody.kept rfl ?_
    rintro _ _ (_ | ⟨hid, _ | ⟨hspan, _ | ⟨hexpr, ⟨⟩⟩⟩⟩)
    refine (NodeId.kept_ofField? hid).bind fun _ => ?_
    refine (Span.kept_ofField? hspan).bind fun _ => ?_
    exact ((ih.expr _ true).required hexpr).bind fun _ => .refl _
  | ret =>
    refine hbody.kept rfl ?_
    rintro _ _ (_ | ⟨hid, _ | ⟨hspan, _ | ⟨hvalue, ⟨⟩⟩⟩⟩)
    refine (NodeId.kept_ofField? hid).bind fun _ => ?_
    refine (Span.kept_ofField? hspan).bind fun _ => ?_
    exact ((ih.expr _ true).orNull.withDefault hvalue).bind fun _ => .refl _

end DecodesRearranged

theorem decodesRearranged (room : Nat) : DecodesRearranged room := by
  induction room with
  | zero =>
    refine ⟨fun n inner j j' _ => ?_, fun n inner j j' _ => ?_⟩
    · rw [Expr.decode, Expr.decode]
      exact .refl none
    · rw [Stmt.decode, Stmt.decode]
      exact .refl none
  | succ room ih => exact ⟨ih.succ_expr, ih.succ_stmt⟩

/-- What is taken in as a whole must fit, and a rearrangement does if it is not too deep. -/
theorem Expr.respects_ofJson? (room : Nat) : Respects room .expr (Expr.ofJson? room) := by
  intro j j' hj e he
  rw [Expr.ofJson?] at he ⊢
  split at he
  · rename_i hfits
    rw [if_pos (Json.fits_iff.2 ⟨hj.1.isValue (Json.fits_iff.1 hfits).1, hj.2⟩)]
    exact (decodesRearranged room).expr room false j j' hj e he
  · cases he

/-! ## Declarations -/

namespace Declaration

theorem kept_decodeTy {room n : Nat} {body body' : Json}
    (h : Json.RecordRearranged n [("ty", .ty)] body body') :
    Kept (decodeTy room body) (decodeTy room body') := by
  refine h.kept rfl ?_
  rintro _ _ (_ | ⟨hty, ⟨⟩⟩)
  exact (Ty.respects_decode room n true).required hty

/-- The kind is read from what is left of the members when others are taken out. -/
theorem Kind.kept_decode {room : Nat} {form : Form} {members members' : List (String × Json)}
    {p : String × Json → Bool} {tag : Json} (htag : Json.only? members "kind" = some (some tag))
    (hform : Json.variant forms true tag = some form)
    (h : Json.MembersRearranged (("kind", .value) :: form.fields) members members')
    (hdepth : ∀ m ∈ members', m.2.depth ≤ room) (hkind : ∀ j, p ("kind", j) = true)
    (hty : ∀ j, p ("ty", j) = true) :
    Kept (Kind.decode room (members.filter p)) (Kind.decode room (members'.filter p)) := by
  obtain ⟨f, htag', hrel⟩ := h.only? hdepth List.mem_cons_self htag
  obtain ⟨hrel⟩ := hrel
  rw [hrel.1.eq_of_variant hform, ← Json.only?_filter hkind] at htag'
  rw [← Json.only?_filter hkind] at htag
  rw [Kind.decode, Kind.decode, Json.tagged_obj_eq_some_iff.2 ⟨htag, rfl⟩,
    Json.tagged_obj_eq_some_iff.2 ⟨htag', rfl⟩]
  simp only [Option.bind_eq_bind, Option.bind_some, hform]
  -- of a query no type is read, and its `ty` may even be repeated
  have hbody : ("ty", Role.ty) ∈ form.fields → Json.RecordRearranged room [("ty", .ty)]
      (.obj ((members.filter p).filter fun m => m.1 != "kind"))
      (.obj ((members'.filter p).filter fun m => m.1 != "kind")) := by
    intro hmem
    have hmembers : Json.RecordRearranged room [("ty", .ty)] (.obj members) (.obj members') :=
      h.toRecord hdepth (by simp [hmem])
    exact (hmembers.filter (by simpa using hty)).filter (by simp)
  cases form with
  | query => exact .refl _
  | var => exact (kept_decodeTy (hbody (by simp [Form.fields]))).bind fun _ => .refl _
  | typeName => exact (kept_decodeTy (hbody (by simp [Form.fields]))).bind fun _ => .refl _

/-- An accepted declaration has a kind. -/
theorem exists_form_of_ofJson? {room : Nat} {members : List (String × Json)} {d : Declaration}
    (h : ofJson? (room + 1) (.obj members) = some d) :
    ∃ tag form, Json.only? members "kind" = some (some tag) ∧
      Json.variant forms true tag = some form := by
  rw [ofJson?] at h
  split at h
  · obtain ⟨fs, -, h⟩ := Option.bind_eq_some_iff.1 h
    split at h
    · obtain ⟨span, -, h⟩ := Option.bind_eq_some_iff.1 h
      obtain ⟨name, -, h⟩ := Option.bind_eq_some_iff.1 h
      obtain ⟨kind, hkind, h⟩ := Option.bind_eq_some_iff.1 h
      obtain ⟨⟨tag, body⟩, htag, hkind⟩ := Option.bind_eq_some_iff.1 hkind
      obtain ⟨form, hform, hkind⟩ := Option.bind_eq_some_iff.1 hkind
      obtain ⟨honly, -⟩ := Json.tagged_obj_eq_some_iff.1 htag
      rw [Json.only?_filter fun _ => by rfl] at honly
      exact ⟨tag, form, honly, hform⟩
    · cases h
  · cases h

/-- What is taken in before the kind is known still fits. -/
theorem all_fits {known : Role.Fields} {members members' : List (String × Json)} {room : Nat}
    (p : String → Bool) (h : Json.MembersRearranged known members members')
    (hdepth : ∀ m ∈ members', m.2.depth ≤ room)
    (hfits : ((members.filter fun m => p m.1).all fun m => m.2.fits room) = true) :
    ((members'.filter fun m => p m.1).all fun m => m.2.fits room) = true := by
  have hvalue : ∀ m ∈ members, p m.1 = true → m.2.isValue = true := by
    intro m hm hp
    exact (Json.fits_iff.1 (List.all_eq_true.1 hfits m (List.mem_filter.2 ⟨hm, hp⟩))).1
  refine List.all_eq_true.2 fun m hm => ?_
  obtain ⟨hm, hp⟩ := List.mem_filter.1 hm
  exact Json.fits_iff.2 ⟨h.isValue p hvalue m hm hp, hdepth m hm⟩

theorem respects_ofJson? (room : Nat) : Respects room .declaration (ofJson? room) := by
  intro j j' hj d hd
  have hshape : ∃ room' members, room = room' + 1 ∧ j = .obj members := by
    unfold ofJson? at hd
    split at hd
    · exact ⟨_, _, rfl, rfl⟩
    · cases hd
  obtain ⟨room, members, rfl, rfl⟩ := hshape
  -- the kind is read last, but which members are known depends on it
  obtain ⟨tag, form, htag, hform⟩ := exists_form_of_ofJson? hd
  have hknown : Role.declaration.known (.obj members) = some (("kind", .value) :: form.fields) := by
    simp [Role.known, Role.layout, Json.tagged_obj_eq_some_iff.2 ⟨htag, rfl⟩,
      Json.variant_variants hform]
  obtain ⟨members', rfl, hmembers⟩ := hj.1.exists_members hknown
  have hdepth : ∀ m ∈ members', m.2.depth ≤ room := by
    have hdepth := hj.2
    rw [Json.depth] at hdepth
    exact Json.memberDepths_le_iff.1 (by omega)
  rw [ofJson?] at hd ⊢
  split at hd
  · rename_i hfits
    rw [if_pos (all_fits (fun key => !(["span", "name"].contains key)) hmembers hdepth hfits)]
    have hrecord : Json.RecordRearranged room [("span", .span), ("name", .value)] (.obj members)
        (.obj members') := hmembers.toRecord hdepth (by cases form <;> simp [Form.fields])
    refine hrecord.kept rfl ?_ d hd
    rintro _ _ (_ | ⟨hspan, _ | ⟨hname, ⟨⟩⟩⟩)
    refine ((Span.respects_ofJson? room).withDefault hspan).bind fun _ => ?_
    refine (respects_asString.required hname).bind fun _ => ?_
    have hkind := Kind.kept_decode (p := fun m => !(["span", "name"].contains m.1)) htag hform
      hmembers hdepth (fun _ => rfl) fun _ => rfl
    exact hkind.bind fun _ => .refl _
  · cases hd

end Declaration

/-! ## Units -/

theorem ScopeId.respects_ofJson? (n : Nat) (r : Role) : Respects n r ScopeId.ofJson? :=
  fun _ _ hj => (respects_asUInt32 _ _ hj).map ScopeId.mk

theorem ScopeSpec.respects_ofJson? (room : Nat) : Respects room .scope (ofJson? room) := by
  intro j j' hj
  refine (hj.untagged rfl).kept rfl ?_
  rintro _ _ (_ | ⟨hparent, _ | ⟨hdeclarations, ⟨⟩⟩⟩)
  refine ((ScopeId.respects_ofJson? _ _).withDefault hparent).bind fun _ => ?_
  exact ((Declaration.respects_ofJson? (room - 2)).asList.withDefault hdeclarations).bind
    fun _ => .refl _

theorem Entry.respects_ofJson? (room : Nat) : Respects room .entry (ofJson? room) := by
  intro j j' hj
  refine (hj.untagged rfl).kept rfl ?_
  rintro _ _ (_ | ⟨hscope, _ | ⟨hexpr, ⟨⟩⟩⟩)
  refine ((ScopeId.respects_ofJson? _ _).withDefault hscope).bind fun _ => ?_
  exact ((Expr.respects_ofJson? (room - 1)).required hexpr).bind fun _ => .refl _

namespace CompilationUnit

theorem respects_ofJson? (room : Nat) : Respects room .unit (ofJson? room) := by
  intro j j' hj
  refine (hj.untagged rfl).kept rfl ?_
  rintro _ _ (_ | ⟨hfile, _ | ⟨hsource, _ | ⟨hdeclarations, _ | ⟨hscopes, _ | ⟨hentries, ⟨⟩⟩⟩⟩⟩⟩)
  refine (respects_asString.withDefault hfile).bind fun _ => ?_
  refine (respects_asString.orNull.withDefault hsource).bind fun _ => ?_
  refine ((Declaration.respects_ofJson? (room - 2)).asList.withDefault hdeclarations).bind
    fun _ => ?_
  refine ((ScopeSpec.respects_ofJson? (room - 2)).asList.withDefault hscopes).bind fun _ => ?_
  exact ((Entry.respects_ofJson? (room - 2)).asList.withDefault hentries).bind fun _ => .refl _

/-- **Key order and unknown keys carry no meaning.**  Put the members of any objects of an accepted
document into other orders and add members that are not known where they stand: if the outcome nests
no deeper than a document may, every text of it is accepted and gives the same unit, in which the
same ids are still to be assigned. -/
theorem parse_rearranged {text text' path : String} {j j' : Json}
    {u : CompilationUnit (Option NodeId)} (hj : Json.parse text = some j)
    (hj' : Json.parse text' = some j') (h : Json.Rearranged .unit j j')
    (hdepth : j'.depth ≤ Json.maxDepth) (hu : parse text path = some u) :
    parse text' path = some u := by
  rw [parse, hj] at hu
  rw [parse, hj']
  obtain ⟨v, hv, rfl⟩ := Option.map_eq_some_iff.1 hu
  exact Option.map_eq_some_iff.2 ⟨v, respects_ofJson? Json.maxDepth j j' ⟨h, hdepth⟩ v hv, rfl⟩

/-- The use of a declared name, and the same with every tag behind the fields that go with it.  Some
of the added keys are known elsewhere: `ret` and `args` in other variants, `scope` around the
expression. -/
theorem parse_rearranged_tags_last :
    let ty : Json := .obj [("type", .str "Secondary"), ("name", .str "i")]
    let ty' : Json := .obj [("ret", .null), ("name", .str "i"), ("type", .str "Secondary")]
    let declaration : Json := .obj [("kind", .str "variable"), ("name", .str "x"), ("ty", ty)]
    let declaration' : Json :=
      .obj [("note", .arr []), ("ty", ty'), ("name", .str "x"), ("kind", .str "variable")]
    let expr : Json := .obj [("type", .str "Variable"), ("name", .str "x")]
    let expr' : Json :=
      .obj [("scope", .nat 1), ("args", .null), ("name", .str "x"), ("type", .str "Variable")]
    let j : Json := .obj [("declarations", .arr [declaration]),
      ("expressions", .arr [.obj [("expr", expr)]])]
    let j' : Json := .obj [("expressions", .arr [.obj [("id", .nat 0), ("expr", expr')]]),
      ("declarations", .arr [declaration'])]
    let u : CompilationUnit (Option NodeId) :=
      { file := "a", declarations := [{ name := "x", kind := .var (.named "i") }],
        entries := [{ expr := .ident { id := none } "x" }] }
    Rearranged .unit j j' ∧ parse j.render "a" = some u ∧ parse j'.render "a" = some u := by
  intro ty ty' declaration declaration' expr expr' j j' u
  have hty : Rearranged .ty ty ty' := by
    refine .of_members [("type", .value), ("name", .value)] _ [("ret", .null)] rfl
      (List.forall₂_same.2 fun m _ => .refl _ m) ?_ (List.reverse_perm _).symm
    simp [Json.isValue]
  have hdeclaration : Rearranged .declaration declaration declaration' := by
    refine .of_members [("kind", .value), ("span", .span), ("name", .value), ("ty", .ty)]
      [_, _, ("ty", ty')] [("note", .arr [])] rfl
      (.cons (.refl _ _) (.cons (.refl _ _) (.cons ⟨rfl, ?_, ?_⟩ .nil))) ?_
      (List.reverse_perm _).symm
    · simpa using hty
    · simp
    · simp [Json.isValue, Json.areValues]
  have hexpr : Rearranged .expr expr expr' := by
    refine .of_members [("type", .value), ("id", .value), ("span", .span), ("name", .value)] _
      [("args", .null), ("scope", .nat 1)] rfl (List.forall₂_same.2 fun m _ => .refl _ m) ?_
      (List.reverse_perm _).symm
    simp [Json.isValue]
  have hentry :
      Rearranged .entry (.obj [("expr", expr)]) (.obj [("id", .nat 0), ("expr", expr')]) := by
    refine .of_members [("scope", .value), ("expr", .expr)] [("expr", expr')] [("id", .nat 0)] rfl
      (.cons ⟨rfl, ?_, ?_⟩ .nil) ?_ (List.reverse_perm _).symm
    · simpa using hexpr
    · simp
    · simp [Json.isValue]
  have hj : Rearranged .unit j j' := by
    refine .of_members [("file", .value), ("source", .value), ("declarations", .list .declaration),
      ("scopes", .list .scope), ("expressions", .list .entry)]
      [(_, .arr [declaration']), (_, .arr [.obj [("id", .nat 0), ("expr", expr')]])] [] rfl
      (.cons ⟨rfl, ?_, ?_⟩ (.cons ⟨rfl, ?_, ?_⟩ .nil)) (by simp) (List.reverse_perm _).symm
    · simpa using Rearranged.of_items (.cons hdeclaration .nil)
    · simp
    · simpa using Rearranged.of_items (.cons hentry .nil)
    · simp
  have hnat : ∀ n < 2, Plain (.nat n) := fun n hn => .nat (hn.trans (by decide))
  have hplain : Plain j := by
    simp [j, declaration, ty, expr, Json.plain_obj_iff, Json.plain_arr_iff, Plain.str]
  have hplain' : Plain j' := by
    simp [j', declaration', ty', expr', Json.plain_obj_iff, Json.plain_arr_iff, Plain.str,
      Plain.null, hnat]
  have hu : parse j.render "a" = some u := by
    rw [parse, Json.parse_render hplain]
    rfl
  refine ⟨hj, hu, ?_⟩
  exact parse_rearranged (Json.parse_render hplain) (Json.parse_render hplain') hj (by decide) hu

end CompilationUnit

end UnitCheck
