import UnitCheck.Proofs.Unit.Report

/-!
# The files that spans name

The file of a unit is filled in where a span of a report names none, but only in the spans of the
diagnostics themselves.  A note has a span only if it points at a hidden declaration, and then it
has the span that the document gives to that declaration, with or without a file.  So all spans of
a report name a file if and only if all hidden declarations do (`BuiltUnit.check_spans`).
-/

set_option autoImplicit false

namespace UnitCheck

/-! ## Spans of diagnostics -/

namespace Span

theorem file_inFile_ne {file : String} (h : file ≠ "") (s : Span) : (s.inFile file).file ≠ "" := by
  rw [inFile]
  split
  · exact h
  · assumption

end Span

namespace Diagnostic

/-- The spans of a diagnostic: its own, and those of its notes. -/
def spans (d : Diagnostic) : List Span := d.span :: d.notes.filterMap Note.span

theorem spans_inFile (file : String) (d : Diagnostic) :
    (d.inFile file).spans = d.span.inFile file :: d.notes.filterMap Note.span := rfl

end Diagnostic

theorem ResolveError.filterMap_notes (e : ResolveError) :
    e.toDiagnostic.notes.filterMap Note.span = [] := by
  rw [toDiagnostic]
  cases e.note? <;> rfl

/-! ## Spans of reports -/

namespace Report

def failure? : Except ResolveError Ty → Option ResolveError
  | .ok _ => none
  | .error e => some e

/-- The failures among the results. -/
def failures (r : Report) : List ResolveError := r.results.filterMap failure?

theorem flatMap_recorded (r : Report) :
    r.results.flatMap Resolving.recorded = r.failures.map ResolveError.toDiagnostic := by
  rw [failures]
  induction r.results with
  | nil => rfl
  | cons result rest ih =>
    rw [List.flatMap_cons, ih]
    cases result <;> rfl

end Report

theorem CompilationUnit.file_of_build {ι : Type} {u : CompilationUnit ι} {b : BuiltUnit ι}
    (h : u.build = .ok b) : b.file = u.file := by
  obtain ⟨root, -, h⟩ := exists_of_bind_eq_ok h
  obtain ⟨all, -, h⟩ := exists_of_bind_eq_ok h
  obtain ⟨exprs, -, h⟩ := exists_of_bind_eq_ok h
  cases h
  rfl

namespace BuiltUnit

variable {ι : Type} {u : CompilationUnit ι} {b : BuiltUnit ι}

/-- All spans of a report, diagnostic by diagnostic. -/
theorem map_spans_check (h : u.build = .ok b) (failFast : Bool) :
    (b.check failFast).diagnostics.map Diagnostic.spans =
      (Environment.new.shadowing u.calls).map (fun p => [p.1.span.inFile u.file, p.2.span]) ++
        (b.check failFast).failures.map fun e => [e.span.inFile u.file] := by
  have hwarnings : b.diagnostics = _ := (CompilationUnit.made_of_build h).1.warnings
  rw [diagnostics_check, CompilationUnit.file_of_build h, hwarnings, Report.flatMap_recorded,
    List.map_append, List.map_append, List.map_map, List.map_map, List.map_map, List.map_map]
  congr 1
  refine List.map_congr_left fun e _ => ?_
  exact (Diagnostic.spans_inFile u.file e.toDiagnostic).trans
    (congrArg (_ :: ·) e.filterMap_notes)

/-- **All spans of a report name a file if and only if all hidden declarations do**, in a unit that
has a file.  A diagnostic is about what the document gives as its place, in the unit's file if it
gives none, so its own span always names a file.  The note of a warning points at the hidden
declaration by the span that the document gives, which stays as it is, and other notes have no
span. -/
theorem check_spans (u : CompilationUnit ι) (b : BuiltUnit ι) (hfile : u.file ≠ "")
    (h : u.build = .ok b) (failFast : Bool) :
    let r := b.check failFast
    let hidden := Environment.new.shadowing u.calls
    r.diagnostics.map Diagnostic.spans =
        hidden.map (fun p => [p.1.span.inFile u.file, p.2.span]) ++
          r.failures.map (fun e => [e.span.inFile u.file]) ∧
      (∀ d ∈ r.diagnostics, d.span.file ≠ "") ∧
      ((∀ d ∈ r.diagnostics, ∀ s ∈ d.spans, s.file ≠ "") ↔
        ∀ p ∈ hidden, p.2.span.file ≠ "") := by
  intro r hidden
  have hspans : r.diagnostics.map Diagnostic.spans = _ := map_spans_check h failFast
  have hnamed (s : Span) : (s.inFile u.file).file ≠ "" := s.file_inFile_ne hfile
  refine ⟨hspans, fun d hd => ?_, ?_⟩
  · rw [show r.diagnostics = _ from diagnostics_check b failFast,
      CompilationUnit.file_of_build h] at hd
    obtain ⟨raw, -, rfl⟩ := List.mem_map.1 hd
    exact hnamed raw.span
  · have hall : (∀ d ∈ r.diagnostics, ∀ s ∈ d.spans, s.file ≠ "") ↔
        ∀ spans ∈ r.diagnostics.map Diagnostic.spans, ∀ s ∈ spans, s.file ≠ "" := by
      rw [List.forall_mem_map]
    rw [hall, hspans, List.forall_mem_append, List.forall_mem_map, List.forall_mem_map]
    simp [hnamed, hidden]

/-- A hidden declaration that names a file, and a failure. -/
theorem check_spans_named :
    let x (file : String) : Declaration :=
      { span := { file := file }, name := "x", kind := .var default }
    let u : CompilationUnit Unit :=
      { file := "a", declarations := [x "b"], scopes := [⟨⟨0⟩, [x ""]⟩],
        entries := [⟨⟨0⟩, .lambda { id := () } []⟩] }
    ∃ b, u.file ≠ "" ∧ u.build = .ok b ∧
      (b.check false).diagnostics.map (fun d => d.spans.map Span.file) = [["a", "b"], ["a"]] ∧
      ∀ d ∈ (b.check false).diagnostics, ∀ s ∈ d.spans, s.file ≠ "" := by
  intro x u
  have hb : u.build = .ok u.described := CompilationUnit.build_eq_described (by decide) (by decide)
  obtain ⟨hspans, -, hiff⟩ := check_spans u u.described (by decide) hb false
  refine ⟨u.described, by decide, hb, ?_, hiff.2 (by decide +kernel)⟩
  have hfiles := congrArg (List.map (List.map Span.file)) hspans
  rw [List.map_map] at hfiles
  exact hfiles.trans (by decide +kernel)

/-- **The note about a hidden declaration may name no file**: it has the span that the document
gives, although the unit has a file. -/
theorem check_spans_unnamed :
    let x : Declaration := { name := "x", kind := .var default }
    let u : CompilationUnit Unit :=
      { file := "a", declarations := [x], scopes := [⟨⟨0⟩, [x]⟩] }
    ∃ b, u.file ≠ "" ∧ u.build = .ok b ∧
      ∃ d ∈ (b.check false).diagnostics, d.span.file = "a" ∧ ∃ s ∈ d.spans, s.file = "" := by
  intro x u
  have hb : u.build = .ok u.described := CompilationUnit.build_eq_described (by decide) (by decide)
  exact ⟨u.described, by decide, hb, (Building.shadowWarning x x).inFile "a", by decide +kernel,
    rfl, x.span, by decide, rfl⟩

end BuiltUnit

end UnitCheck
