import UnitCheck.Diagnostic.Json
import UnitCheck.Proofs.Document.Basic
import UnitCheck.Proofs.Json.RoundTrip
import UnitCheck.Proofs.Json.SortKeys
import UnitCheck.Proofs.Json.Text

/-!
# Diagnostics are read back

The document of a diagnostic leaves out what is empty, notes and the spans of notes, and reading it
fills both in again, so that nothing is lost on the way through a text
(`Diagnostic.listToJson_readable`).

Reports print the same diagnostics with their keys in another order.  That makes no difference to a
reader, which finds the members of a record by their keys (`Diagnostic.keyBlind_listOfJson?`).
-/

set_option autoImplicit false

namespace UnitCheck

open Json (EveryObject KeyBlind Plain keyBlind_asString keyBlind_asUInt64)

/-! ## What is read from a document -/

theorem Severity.ofJson?_toJson (s : Severity) : ofJson? s.toJson = some s := by
  cases s <;> rfl

theorem Note.ofJson?_toJson (n : Note) : ofJson? n.toJson = some n := by
  obtain ⟨message, span⟩ := n
  cases span with
  | none => simp [toJson, ofJson?, Json.fields, Json.only?, Json.withDefault]
  | some s =>
    have hspan : Json.orNull Span.ofJson? s.toJson = some (some s) := by
      rw [Span.toJson, Json.orNull, ← Span.toJson, s.doc_toJson.ofJson?, Option.map_some]
      simp
    simp [toJson, ofJson?, Json.fields, Json.only?, hspan]

theorem Json.asList_map {α : Type} {write : α → Json} {read : Json → Option α}
    (h : ∀ a, read (write a) = some a) (as : List α) :
    Json.asList read (.arr (as.map write)) = some as := by
  rw [Json.asList, List.mapM_map, show read ∘ write = pure from funext h]
  simpa using List.mapM_pure (m := Option) (l := as) (f := fun a => a)

namespace Diagnostic

theorem ofJson?_toJson (d : Diagnostic) : ofJson? d.toJson = some d := by
  obtain ⟨code, severity, message, span, notes⟩ := d
  have hspan := span.doc_toJson.ofJson?
  have hnotes := Json.asList_map Note.ofJson?_toJson notes
  by_cases h : notes = []
  · simp [toJson, ofJson?, Json.fields, Json.only?, Json.withDefault, h, hspan,
      Severity.ofJson?_toJson]
  · simp [toJson, ofJson?, Json.fields, Json.only?, h, hspan, hnotes, Severity.ofJson?_toJson]

theorem listOfJson?_listToJson (ds : List Diagnostic) : listOfJson? (listToJson ds) = some ds :=
  Json.asList_map ofJson?_toJson ds

end Diagnostic

/-! ## What a document is made of -/

theorem Span.distinctKeys_toJson (s : Span) : EveryObject List.Nodup s.toJson := by
  refine .obj (by simp) ?_
  simp [EveryObject.str, Json.everyObject_ofUInt64]

namespace Note

theorem plain_toJson (n : Note) : Plain n.toJson := by
  obtain ⟨message, span⟩ := n
  cases span with
  | none => simp [toJson, Json.plain_obj_iff, Plain.str]
  | some s => simp [toJson, Json.plain_obj_iff, Plain.str, s.doc_toJson.plain]

theorem distinctKeys_toJson (n : Note) : EveryObject List.Nodup n.toJson := by
  obtain ⟨message, span⟩ := n
  cases span with
  | none => exact .obj (by simp) (by simp [EveryObject.str])
  | some s => exact .obj (by simp) (by simp [EveryObject.str, s.distinctKeys_toJson])

theorem depth_toJson_le (n : Note) : n.toJson.depth ≤ 2 := by
  obtain ⟨message, span⟩ := n
  cases span with
  | none => simp [toJson, Json.depth, Json.memberDepths]
  | some s => simp [toJson, Json.depth, Json.memberDepths, s.doc_toJson.depth_eq]

end Note

namespace Diagnostic

theorem plain_toJson (d : Diagnostic) : Plain d.toJson := by
  have hnotes : Plain (.arr (d.notes.map Note.toJson)) :=
    .arr (List.forall_mem_map.2 fun n _ => n.plain_toJson)
  rw [toJson, Json.plain_obj_iff]
  split
  · simp [Severity.toJson, Plain.str, d.span.doc_toJson.plain]
  · simp [Severity.toJson, Plain.str, d.span.doc_toJson.plain, hnotes]

theorem distinctKeys_toJson (d : Diagnostic) : EveryObject List.Nodup d.toJson := by
  have hspan := d.span.distinctKeys_toJson
  have hnotes : EveryObject List.Nodup (.arr (d.notes.map Note.toJson)) :=
    .arr (List.forall_mem_map.2 fun n _ => n.distinctKeys_toJson)
  rw [toJson]
  split
  · exact .obj (by simp) (by simp [Severity.toJson, EveryObject.str, hspan])
  · exact .obj (by simp) (by simp [Severity.toJson, EveryObject.str, hspan, hnotes])

theorem depth_toJson_le (d : Diagnostic) : d.toJson.depth ≤ 4 := by
  have hspan := d.span.doc_toJson.depth_eq
  have hnotes : Json.depths (d.notes.map Note.toJson) ≤ 2 :=
    Json.depths_le_iff.2 (List.forall_mem_map.2 fun n _ => n.depth_toJson_le)
  rw [toJson, Json.depth, Severity.toJson]
  split
  · simp only [List.append_nil, Json.memberDepths, Json.depth, hspan]
    omega
  · simp only [List.cons_append, List.nil_append, Json.memberDepths, Json.depth, hspan]
    omega

theorem plain_listToJson (ds : List Diagnostic) : Plain (listToJson ds) :=
  .arr (List.forall_mem_map.2 fun d _ => d.plain_toJson)

theorem distinctKeys_listToJson (ds : List Diagnostic) :
    EveryObject List.Nodup (listToJson ds) :=
  .arr (List.forall_mem_map.2 fun d _ => d.distinctKeys_toJson)

theorem depth_listToJson_le (ds : List Diagnostic) : (listToJson ds).depth ≤ 5 := by
  rw [listToJson, Json.depth, Nat.succ_le_succ_iff, Json.depths_le_iff]
  exact List.forall_mem_map.2 fun d _ => d.depth_toJson_le

/-! ## Through the text -/

/-- **Diagnostics survive their text.**  The text of any list of diagnostics is one line: the texts
of the diagnostics, with commas between them, in brackets.  It is read as an array that nests no
deeper than is allowed, and the array as the same diagnostics in the same order.  The text of one
diagnostic is one line as well, and is read as that diagnostic. -/
theorem listToJson_readable (ds : List Diagnostic) :
    Json.OneLine (listToJson ds).render ∧
    (listToJson ds).render = "[" ++ ",".intercalate (ds.map fun d => d.toJson.render) ++ "]" ∧
    (∃ items, Json.parse (listToJson ds).render = some (.arr items) ∧
      (Json.arr items).depth ≤ Json.maxDepth ∧ listOfJson? (.arr items) = some ds) ∧
    ∀ d : Diagnostic, Json.OneLine d.toJson.render ∧
      ∃ j, Json.parse d.toJson.render = some j ∧ j.depth ≤ Json.maxDepth ∧ ofJson? j = some d := by
  refine ⟨Json.oneLine_render _, ?_, ?_, fun d => ⟨Json.oneLine_render _, ?_⟩⟩
  · rw [listToJson, Json.render_arr, List.map_map]
    rfl
  · exact ⟨ds.map toJson, Json.parse_render (plain_listToJson ds),
      Nat.le_trans (depth_listToJson_le ds) (by decide), listOfJson?_listToJson ds⟩
  · exact ⟨d.toJson, Json.parse_render d.plain_toJson,
      Nat.le_trans d.depth_toJson_le (by decide), d.ofJson?_toJson⟩

end Diagnostic

/-! ## The order of keys -/

theorem Span.keyBlind_ofJson? : KeyBlind Span.ofJson? := by
  intro j
  refine Json.keyBlind_record (fun fs hfs => ?_) j
  match fs, hfs with
  | [file, start, stop, startLine, startCol, endLine, endCol], _ =>
    simp only [List.map_cons, List.map_nil, keyBlind_asString.withDefault,
      keyBlind_asUInt64.withDefault]

theorem Severity.ofJson?_of_length_ne {members : List (String × Json)}
    (h : members.length ≠ 1) : Severity.ofJson? (.obj members) = none := by
  rw [ofJson?.eq_def]
  split
  · rename_i heq
    cases heq
  · rename_i heq
    cases heq
    exact absurd rfl h
  · rfl

/-- Only an object with one member is a severity, and one member has no order. -/
theorem Severity.keyBlind_ofJson? : KeyBlind Severity.ofJson? := by
  intro j
  cases j with
  | obj members =>
    by_cases hlen : members.length = 1
    · obtain ⟨⟨s, j⟩, rfl⟩ := List.length_eq_one_iff.1 hlen
      cases j <;> rfl
    · have hsorted : (Json.sortMembers members).length ≠ 1 := by
        rwa [(Json.perm_sortMembers members).length_eq, List.length_map]
      rw [Json.sortKeys, ofJson?_of_length_ne hsorted, ofJson?_of_length_ne hlen]
  | null | bool | nat | real | str | arr | invalid => rfl

theorem Note.keyBlind_ofJson? : KeyBlind Note.ofJson? := by
  intro j
  -- the test that an array has both elements does not look at them
  cases j with
  | arr items =>
    rw [Json.sortKeys, Json.sortKeysAll_eq_map, ofJson?, ofJson?, List.length_map,
      ← Json.sortKeysAll_eq_map]
    split
    · rfl
    · refine Json.keyBlind_record (fun fs hfs => ?_) (.arr items)
      obtain ⟨message, span, rfl⟩ := List.length_eq_two.1 hfs
      simp only [List.map_cons, List.map_nil, keyBlind_asString.required,
        Span.keyBlind_ofJson?.orNull.withDefault]
  | null | bool | nat | real | str | invalid => rfl
  | obj members =>
    refine Json.keyBlind_record (fun fs hfs => ?_) (.obj members)
    obtain ⟨message, span, rfl⟩ := List.length_eq_two.1 hfs
    simp only [List.map_cons, List.map_nil, keyBlind_asString.required,
      Span.keyBlind_ofJson?.orNull.withDefault]

namespace Diagnostic

theorem keyBlind_ofJson? : KeyBlind ofJson? := by
  intro j
  refine Json.keyBlind_record (fun fs hfs => ?_) j
  match fs, hfs with
  | [code, severity, message, span, notes], _ =>
    simp only [List.map_cons, List.map_nil, keyBlind_asString.required,
      Severity.keyBlind_ofJson?.required, Span.keyBlind_ofJson?.required,
      Note.keyBlind_ofJson?.asList.withDefault]

theorem keyBlind_listOfJson? : KeyBlind listOfJson? := keyBlind_ofJson?.asList

end Diagnostic

end UnitCheck
