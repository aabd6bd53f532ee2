import UnitCheck.Expr.Json
import UnitCheck.Proofs.Json.Record

/-!
# The documents of spans, types and literals

A document leaves a choice at every record in it: object or array.  `Ty.Doc t j` says that `j` is a
document of `t` for some way of choosing, and so do `Span.Doc` and `Literal.Doc`.  What `toJson`
writes chooses the object everywhere.

The readers take back every document that nests no deeper than the room they have
(`Ty.decode_of_doc`).  The induction is on the room, because one level of a type uses up one level
of it.
-/

set_option autoImplicit false

namespace UnitCheck

open Json (RecordOf TaggedOf OptionOf Plain)

/-! ## Spans -/

namespace Span

/-- The fields of a span as they are written. -/
def fieldValues (s : Span) : List Json :=
  [.str s.file, Json.ofUInt64 s.start, Json.ofUInt64 s.stop, Json.ofUInt64 s.startLine,
    Json.ofUInt64 s.startCol, Json.ofUInt64 s.endLine, Json.ofUInt64 s.endCol]

/-- The documents of a span. -/
def Doc (s : Span) (j : Json) : Prop := RecordOf fieldNames s.fieldValues j

theorem doc_toJson (s : Span) : s.Doc s.toJson := RecordOf.keyed

variable {s : Span} {j : Json}

theorem Doc.ofJson? (h : s.Doc j) : Span.ofJson? j = some s := by
  have hfields := RecordOf.fields_eq h (by decide) rfl
  rw [Span.ofJson?, hfields]
  simp [fieldValues]

theorem Doc.depth_eq (h : s.Doc j) : j.depth = 1 := by
  rw [RecordOf.depth_eq h rfl]
  simp [fieldValues, Json.depths, Json.depth]

theorem Doc.plain (h : s.Doc j) : Plain j := by
  refine RecordOf.plain h ?_
  simp [fieldValues, Plain.str, Json.plain_ofUInt64]

end Span

/-! ## Types -/

/-- The documents of a type. -/
inductive Ty.Doc : Ty → Json → Prop
  | named {name : String} {j : Json} (h : TaggedOf "type" "Secondary" ["name"] [.str name] j) :
      Ty.Doc (.named name) j
  | applied {container parameter : Ty} {jc jp j : Json} (hc : Ty.Doc container jc)
      (hp : Ty.Doc parameter jp)
      (h : TaggedOf "type" "ThirdLevel" ["container", "parameter"] [jc, jp] j) :
      Ty.Doc (.applied container parameter) j
  | lambda {params : List Ty} {result : Ty} {items : List Json} {jr j : Json}
      (hps : List.Forall₂ Ty.Doc params items) (hr : Ty.Doc result jr)
      (h : TaggedOf "type" "Lambda" ["params", "ret"] [.arr items, jr] j) :
      Ty.Doc (.lambda params result) j

namespace Ty

mutual

theorem doc_toJson : ∀ t : Ty, t.Doc t.toJson
  | .named _ => .named .keyed
  | .applied container parameter => .applied (doc_toJson container) (doc_toJson parameter) .keyed
  | .lambda params result => .lambda (doc_listToJson params) (doc_toJson result) .keyed

theorem doc_listToJson : ∀ ts : List Ty, List.Forall₂ Ty.Doc ts (listToJson ts)
  | [] => .nil
  | t :: ts => .cons (doc_toJson t) (doc_listToJson ts)

end

theorem decode_of_doc {room : Nat} {t : Ty} {j : Json} (inner : Bool) (h : t.Doc j)
    (hroom : j.depth ≤ room) : decode room inner j = some t := by
  induction room generalizing t j inner with
  | zero =>
    cases h with
    | named h => rw [h.depth_eq rfl] at hroom; omega
    | applied _ _ h => rw [h.depth_eq rfl] at hroom; omega
    | lambda _ _ h => rw [h.depth_eq rfl] at hroom; omega
  | succ room ih =>
    cases h with
    | named h =>
      obtain ⟨body, htag, hfields⟩ := h.tagged_eq (by decide) rfl
      have hform : Json.variant forms inner (.str "Secondary") = some .named := rfl
      rw [decode, htag]
      simp [hform, hfields]
    | applied hc hp h =>
      obtain ⟨body, htag, hfields⟩ := h.tagged_eq (by decide) rfl
      have hform : Json.variant forms inner (.str "ThirdLevel") = some .applied := rfl
      have hle := h.depth_le rfl hroom
      have hcontainer := ih true hc (hle _ (by simp))
      have hparameter := ih true hp (hle _ (by simp))
      rw [decode, htag]
      simp [hform, hfields, hcontainer, hparameter]
    | @lambda params _ items _ _ hps hr h =>
      obtain ⟨body, htag, hfields⟩ := h.tagged_eq (by decide) rfl
      have hform : Json.variant forms inner (.str "Lambda") = some .lambda := rfl
      have hle := h.depth_le rfl hroom
      have hparams : Json.asList (decode room true) (.arr items) = some (params.map fun t => t) :=
        Json.asList_eq_some hps (hle _ (by simp)) fun t j ht hj => ih true ht hj
      have hresult := ih true hr (hle _ (by simp))
      rw [decode, htag]
      simp [hform, hfields, hparams, hresult]

theorem Doc.plain {t : Ty} {j : Json} (h : t.Doc j) : Plain j := by
  cases h with
  | named h => exact h.plain (by simp [Plain.str])
  | applied hc hp h =>
    have hcd := h.depth_lt rfl (List.mem_cons_self ..)
    have hpd := h.depth_lt rfl (List.mem_cons_of_mem _ (List.mem_cons_self ..))
    exact h.plain (by simp [hc.plain, hp.plain])
  | @lambda _ _ items _ _ hps hr h =>
    have hpsd := h.depth_lt rfl (List.mem_cons_self ..)
    have hrd := h.depth_lt rfl (List.mem_cons_of_mem _ (List.mem_cons_self ..))
    have hitems : ∀ i ∈ items, Plain i := by
      intro i hi
      have hid := Json.depth_lt_arr hi
      obtain ⟨t, -, ht⟩ := Json.exists_of_forall₂ hps hi
      exact ht.plain
    exact h.plain (by simp [Plain.arr hitems, hr.plain])
termination_by j.depth

@[simp] theorem decode_null (room : Nat) (inner : Bool) : decode room inner .null = none := by
  cases room <;> rfl

end Ty

/-! ## Literals -/

/-- The documents of a literal. -/
inductive Literal.Doc : Literal → Json → Prop
  | int {text : String} {signed : Bool} {length : UInt32} {j : Json}
      (h : TaggedOf "kind" "int" ["value", "signed", "length"]
        [.str text, .bool signed, Json.ofUInt32 length] j) :
      Literal.Doc (.int text signed length) j
  | typed {text : String} {ty : Ty} {jt j : Json} (ht : ty.Doc jt)
      (h : TaggedOf "kind" "typed" ["value", "ty"] [.str text, jt] j) :
      Literal.Doc (.typed text ty) j

namespace Literal

theorem doc_toJson : ∀ l : Literal, l.Doc l.toJson
  | .int _ _ _ => .int .keyed
  | .typed _ ty => .typed ty.doc_toJson .keyed

variable {l : Literal} {j : Json}

theorem decode_of_doc {room : Nat} (inner : Bool) (h : l.Doc j) (hroom : j.depth ≤ room) :
    decode room inner j = some l := by
  cases h with
  | int h =>
    obtain ⟨body, htag, hfields⟩ := h.tagged_eq (by decide) rfl
    have hform : Json.variant forms inner (.str "int") = some .int := rfl
    rw [decode, htag]
    simp [hform, hfields]
  | typed ht h =>
    obtain ⟨body, htag, hfields⟩ := h.tagged_eq (by decide) rfl
    have hform : Json.variant forms inner (.str "typed") = some .typed := rfl
    have hlt := h.depth_lt rfl (List.mem_cons_of_mem _ (List.mem_cons_self ..))
    have hty : Ty.decode room true _ = some _ := Ty.decode_of_doc true ht (by omega)
    rw [decode, htag]
    simp [hform, hfields, hty]

theorem Doc.plain (h : l.Doc j) : Plain j := by
  cases h with
  | int h => exact h.plain (by simp [Plain.str, Plain.bool, Json.plain_ofUInt32])
  | typed ht h => exact h.plain (by simp [Plain.str, ht.plain])

end Literal

end UnitCheck
