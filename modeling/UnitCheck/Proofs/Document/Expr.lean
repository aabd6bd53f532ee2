import UnitCheck.Proofs.Document.Basic
import UnitCheck.Proofs.Expr.Map

/-!
# The documents of expressions and statements

`Expr.Doc e j` and `Stmt.Doc s j` say that `j` is a document of a tree that has all its ids, for
some choice between object and array at every record.  The scopes of the tree play no part in it.

Reading a document that there is room for gives the tree back with its ids, and without scopes
(`decode_of_doc`).  Expressions and statements contain each other, so both halves are proved in one
induction on the room.
-/

set_option autoImplicit false

namespace UnitCheck

open Json (TaggedOf OptionOf Plain)

mutual

/-- The documents of an expression. -/
inductive Expr.Doc : Expr NodeId → Json → Prop
  | literal {site : Site NodeId} {value : Literal} {js jv j : Json} (hs : site.span.Doc js)
      (hv : value.Doc jv)
      (h : TaggedOf "type" "Literal" ["id", "span", "literal"] [site.id.toJson, js, jv] j) :
      Expr.Doc (.literal site value) j
  | lambda {site : Site NodeId} {body : List (Stmt NodeId)} {items : List Json} {js j : Json}
      (hs : site.span.Doc js) (hb : List.Forall₂ Stmt.Doc body items)
      (h : TaggedOf "type" "Lambda" ["id", "span", "body"] [site.id.toJson, js, .arr items] j) :
      Expr.Doc (.lambda site body) j
  | ident {site : Site NodeId} {name : String} {js j : Json} (hs : site.span.Doc js)
      (h : TaggedOf "type" "Variable" ["id", "span", "name"] [site.id.toJson, js, .str name] j) :
      Expr.Doc (.ident site name) j
  | call {site : Site NodeId} {receiver : Expr NodeId} {args : List (Expr NodeId)}
      {items : List Json} {js jr j : Json} (hs : site.span.Doc js) (hr : Expr.Doc receiver jr)
      (ha : List.Forall₂ Expr.Doc args items)
      (h : TaggedOf "type" "Call" ["id", "span", "receiver", "args"]
        [site.id.toJson, js, jr, .arr items] j) :
      Expr.Doc (.call site receiver args) j

/-- The documents of a statement. -/
inductive Stmt.Doc : Stmt NodeId → Json → Prop
  | bind {id : NodeId} {span : Span} {name : String} {ty : Option Ty}
      {value : Option (Expr NodeId)} {js jt jv j : Json} (hs : span.Doc js)
      (ht : OptionOf Ty.Doc ty jt) (hv : OptionOf Expr.Doc value jv)
      (h : TaggedOf "type" "Let" ["id", "span", "name", "ty", "value"]
        [id.toJson, js, .str name, jt, jv] j) :
      Stmt.Doc (.bind id span name ty value) j
  | eval {id : NodeId} {span : Span} {expr : Expr NodeId} {js je j : Json} (hs : span.Doc js)
      (he : Expr.Doc expr je)
      (h : TaggedOf "type" "Expr" ["id", "span", "expr"] [id.toJson, js, je] j) :
      Stmt.Doc (.eval id span expr) j
  | ret {id : NodeId} {span : Span} {value : Option (Expr NodeId)} {js jv j : Json}
      (hs : span.Doc js) (hv : OptionOf Expr.Doc value jv)
      (h : TaggedOf "type" "Return" ["id", "span", "value"] [id.toJson, js, jv] j) :
      Stmt.Doc (.ret id span value) j

end

/-! ## What is printed is a document -/

theorem Ty.doc_ofOption (o : Option Ty) : OptionOf Ty.Doc o (Json.ofOption Ty.toJson o) := by
  cases o with
  | none => exact .absent
  | some t => exact .present t.doc_toJson

mutual

theorem Expr.doc_toJson : ∀ e : Expr NodeId, e.Doc e.toJson
  | .literal site value => .literal site.span.doc_toJson value.doc_toJson .keyed
  | .lambda site body => .lambda site.span.doc_toJson (Stmt.doc_listToJson body) .keyed
  | .ident site _ => .ident site.span.doc_toJson .keyed
  | .call site receiver args =>
    .call site.span.doc_toJson (Expr.doc_toJson receiver) (Expr.doc_listToJson args) .keyed

theorem Expr.doc_listToJson : ∀ es : List (Expr NodeId),
    List.Forall₂ Expr.Doc es (Expr.listToJson es)
  | [] => .nil
  | e :: es => .cons (Expr.doc_toJson e) (Expr.doc_listToJson es)

theorem Expr.doc_optionToJson : ∀ o : Option (Expr NodeId),
    OptionOf Expr.Doc o (Expr.optionToJson o)
  | none => .absent
  | some e => .present (Expr.doc_toJson e)

theorem Stmt.doc_toJson : ∀ s : Stmt NodeId, s.Doc s.toJson
  | .bind _ span _ ty value =>
    .bind span.doc_toJson (Ty.doc_ofOption ty) (Expr.doc_optionToJson value) .keyed
  | .eval _ span expr => .eval span.doc_toJson (Expr.doc_toJson expr) .keyed
  | .ret _ span value => .ret span.doc_toJson (Expr.doc_optionToJson value) .keyed

theorem Stmt.doc_listToJson : ∀ ss : List (Stmt NodeId),
    List.Forall₂ Stmt.Doc ss (Stmt.listToJson ss)
  | [] => .nil
  | s :: ss => .cons (Stmt.doc_toJson s) (Stmt.doc_listToJson ss)

end

/-! ## Reading -/

@[simp] theorem NodeId.ofField?_toJson (i : NodeId) : ofField? (some i.toJson) = some (some i) := by
  rw [ofField?, toJson, Json.asUInt64_ofUInt64]
  rfl

theorem NodeId.plain_toJson (i : NodeId) : Plain i.toJson := Json.plain_ofUInt64 i.value

theorem Span.Doc.ofField? {s : Span} {j : Json} (h : s.Doc j) :
    Span.ofField? (some j) = some s := h.ofJson?

theorem Site.decode_of_doc {site : Site NodeId} {j : Json} (h : site.span.Doc j) :
    Site.decode (some site.id.toJson) (some j) = some (site.map some fun _ => none) := by
  rw [Site.decode, NodeId.ofField?_toJson, h.ofField?]
  rfl

@[simp] theorem Expr.decode_null (room : Nat) (inner : Bool) :
    Expr.decode room inner .null = none := by
  cases room with
  | zero => rw [Expr.decode]
  | succ room => rw [Expr.decode]; rfl

/-- Every document of an expression or a statement that nests at most `room` deep is read. -/
structure DecodesDocs (room : Nat) : Prop where
  expr : ∀ {e : Expr NodeId} {j : Json} (inner : Bool), e.Doc j → j.depth ≤ room →
    Expr.decode room inner j = some (e.map some fun _ => none)
  stmt : ∀ {s : Stmt NodeId} {j : Json} (inner : Bool), s.Doc j → j.depth ≤ room →
    Stmt.decode room inner j = some (s.map some fun _ => none)

theorem DecodesDocs.succ_expr {room : Nat} (ih : DecodesDocs room) {e : Expr NodeId} {j : Json}
    (inner : Bool) (h : e.Doc j) (hroom : j.depth ≤ room + 1) :
    Expr.decode (room + 1) inner j = some (e.map some fun _ => none) := by
  cases h with
  | literal hs hv h =>
    obtain ⟨body, htag, hfields⟩ := h.tagged_eq (by decide) rfl
    have hform : Json.variant Expr.forms inner (.str "Literal") = some .literal := rfl
    have hle := h.depth_le rfl hroom
    have hvalue := Literal.decode_of_doc true hv (hle _ (by simp))
    rw [Expr.decode, htag]
    simp [hform, hfields, Site.decode_of_doc hs, hvalue, Expr.map]
  | @lambda _ _ items _ _ hs hb h =>
    obtain ⟨body, htag, hfields⟩ := h.tagged_eq (by decide) rfl
    have hform : Json.variant Expr.forms inner (.str "Lambda") = some .lambda := rfl
    have hle := h.depth_le rfl hroom
    have hbody := Json.asList_eq_some hb (hle (.arr items) (by simp))
      fun s j hj hjd => ih.stmt true hj hjd
    rw [Expr.decode, htag]
    simp [hform, hfields, Site.decode_of_doc hs, hbody, Expr.map, Stmt.mapAll_eq_map]
  | ident hs h =>
    obtain ⟨body, htag, hfields⟩ := h.tagged_eq (by decide) rfl
    have hform : Json.variant Expr.forms inner (.str "Variable") = some .ident := rfl
    rw [Expr.decode, htag]
    simp [hform, hfields, Site.decode_of_doc hs, Expr.map]
  | @call _ _ _ items _ _ _ hs hr ha h =>
    obtain ⟨body, htag, hfields⟩ := h.tagged_eq (by decide) rfl
    have hform : Json.variant Expr.forms inner (.str "Call") = some .call := rfl
    have hle := h.depth_le rfl hroom
    have hreceiver := ih.expr true hr (hle _ (by simp))
    have hargs := Json.asList_eq_some ha (hle (.arr items) (by simp))
      fun e j hj hjd => ih.expr true hj hjd
    rw [Expr.decode, htag]
    simp [hform, hfields, Site.decode_of_doc hs, hreceiver, hargs, Expr.map, Expr.mapAll_eq_map]

theorem DecodesDocs.succ_stmt {room : Nat} (ih : DecodesDocs room) {s : Stmt NodeId} {j : Json}
    (inner : Bool) (h : s.Doc j) (hroom : j.depth ≤ room + 1) :
    Stmt.decode (room + 1) inner j = some (s.map some fun _ => none) := by
  cases h with
  | @bind _ _ _ ty value _ _ _ _ hs ht hv h =>
    obtain ⟨body, htag, hfields⟩ := h.tagged_eq (by decide) rfl
    have hform : Json.variant Stmt.forms inner (.str "Let") = some .bind := rfl
    have hle := h.depth_le rfl hroom
    have hty := ht.orNull_eq (f := fun t => t) (Ty.decode room true) (Ty.decode_null room true)
      fun t ht => Ty.decode_of_doc true ht (hle _ (by simp))
    have hvalue := hv.orNull_eq (Expr.decode room true) (Expr.decode_null room true)
      fun e he => ih.expr true he (hle _ (by simp))
    rw [Stmt.decode, htag]
    simp [hform, hfields, hs.ofField?, hty, hvalue, Stmt.map, Expr.mapOption_eq_map]
  | eval hs he h =>
    obtain ⟨body, htag, hfields⟩ := h.tagged_eq (by decide) rfl
    have hform : Json.variant Stmt.forms inner (.str "Expr") = some .eval := rfl
    have hle := h.depth_le rfl hroom
    have hexpr := ih.expr true he (hle _ (by simp))
    rw [Stmt.decode, htag]
    simp [hform, hfields, hs.ofField?, hexpr, Stmt.map]
  | ret hs hv h =>
    obtain ⟨body, htag, hfields⟩ := h.tagged_eq (by decide) rfl
    have hform : Json.variant Stmt.forms inner (.str "Return") = some .ret := rfl
    have hle := h.depth_le rfl hroom
    have hvalue := hv.orNull_eq (Expr.decode room true) (Expr.decode_null room true)
      fun e he => ih.expr true he (hle _ (by simp))
    rw [Stmt.decode, htag]
    simp [hform, hfields, hs.ofField?, hvalue, Stmt.map, Expr.mapOption_eq_map]

theorem Expr.Doc.depth_pos {e : Expr NodeId} {j : Json} (h : e.Doc j) : 0 < j.depth := by
  cases h with
  | literal _ _ h => rw [h.depth_eq rfl]; omega
  | lambda _ _ h => rw [h.depth_eq rfl]; omega
  | ident _ h => rw [h.depth_eq rfl]; omega
  | call _ _ _ h => rw [h.depth_eq rfl]; omega

theorem Stmt.Doc.depth_pos {s : Stmt NodeId} {j : Json} (h : s.Doc j) : 0 < j.depth := by
  cases h with
  | bind _ _ _ h => rw [h.depth_eq rfl]; omega
  | eval _ _ h => rw [h.depth_eq rfl]; omega
  | ret _ _ h => rw [h.depth_eq rfl]; omega

/-- **Documents are read back**, by every reader that has room for them. -/
theorem decodesDocs (room : Nat) : DecodesDocs room := by
  induction room with
  | zero =>
    exact ⟨fun _ h hroom => absurd h.depth_pos (by omega),
      fun _ h hroom => absurd h.depth_pos (by omega)⟩
  | succ room ih => exact ⟨ih.succ_expr, ih.succ_stmt⟩

/-! ## Documents are plain -/

mutual

theorem Expr.Doc.plain {e : Expr NodeId} {j : Json} (h : e.Doc j) : Plain j := by
  cases h with
  | literal hs hv h => exact h.plain (by simp [NodeId.plain_toJson, hs.plain, hv.plain])
  | @lambda site _ items js _ hs hb h =>
    have hitems : ∀ i ∈ items, Plain i := by
      intro i hi
      have hid : i.depth < j.depth :=
        Nat.lt_trans (Json.depth_lt_arr hi) (h.depth_lt rfl (by simp))
      obtain ⟨s, -, hsi⟩ := Json.exists_of_forall₂ hb hi
      exact hsi.plain
    exact h.plain (by simp [NodeId.plain_toJson, hs.plain, Plain.arr hitems])
  | ident hs h => exact h.plain (by simp [NodeId.plain_toJson, hs.plain, Plain.str])
  | @call site _ _ items js jr _ hs hr ha h =>
    have hrd : jr.depth < j.depth := h.depth_lt rfl (by simp)
    have hitems : ∀ i ∈ items, Plain i := by
      intro i hi
      have hid : i.depth < j.depth :=
        Nat.lt_trans (Json.depth_lt_arr hi) (h.depth_lt rfl (by simp))
      obtain ⟨e, -, hei⟩ := Json.exists_of_forall₂ ha hi
      exact hei.plain
    exact h.plain (by simp [NodeId.plain_toJson, hs.plain, hr.plain, Plain.arr hitems])
termination_by j.depth

theorem Stmt.Doc.plain {s : Stmt NodeId} {j : Json} (h : s.Doc j) : Plain j := by
  cases h with
  | @bind id _ name _ _ js jt jv _ hs ht hv h =>
    have hvd : jv.depth < j.depth := h.depth_lt rfl (by simp)
    have hty : Plain jt := ht.plain fun _ ht => ht.plain
    have hvalue : Plain jv := hv.plain fun _ he => he.plain
    exact h.plain (by simp [NodeId.plain_toJson, hs.plain, Plain.str, hty, hvalue])
  | @eval id _ _ js je _ hs he h =>
    have hed : je.depth < j.depth := h.depth_lt rfl (by simp)
    exact h.plain (by simp [NodeId.plain_toJson, hs.plain, he.plain])
  | @ret id _ _ js jv _ hs hv h =>
    have hvd : jv.depth < j.depth := h.depth_lt rfl (by simp)
    have hvalue : Plain jv := hv.plain fun _ he => he.plain
    exact h.plain (by simp [NodeId.plain_toJson, hs.plain, hvalue])
termination_by j.depth

end

end UnitCheck
