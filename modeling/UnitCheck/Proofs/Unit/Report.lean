import UnitCheck.Proofs.Resolve.Checker
import UnitCheck.Proofs.Unit.Calls
import UnitCheck.Unit.Report

/-!
# Reports on units

A report on a built unit has the outcomes of its expressions, and for diagnostics the warnings of
building followed by the failures among the outcomes, each with its file filled in.  None of this
depends on how many scopes there are: whatever is built, building has recorded nothing but warnings
about hidden declarations (`CompilationUnit.shadowWarnings_of_build`).  So errors and failures can
be counted against each other (`BuiltUnit.check_report`), and whether there are any does not depend
on where checking stops (`BuiltUnit.countP_results_pos_iff`).
-/

set_option autoImplicit false

namespace UnitCheck

/-! ## What building records -/

namespace Building

/-- Nothing is recorded but warnings about hidden declarations. -/
def ShadowWarnings (ds : List Diagnostic) : Prop := ∀ w ∈ ds, ∃ d outer, w = shadowWarning d outer

end Building

theorem CompilationUnit.shadowWarnings_of_build {ι : Type} {u : CompilationUnit ι}
    {b : BuiltUnit ι} (h : u.build = .ok b) : Building.ShadowWarnings b.diagnostics := by
  intro w hw
  have hwarnings : b.diagnostics = _ := (made_of_build h).1.warnings
  rw [hwarnings] at hw
  obtain ⟨p, -, rfl⟩ := List.mem_map.1 hw
  exact ⟨p.1, p.2, rfl⟩

/-! ## Counting -/

namespace Diagnostic

theorem inFile_eq (file : String) (d : Diagnostic) :
    d.inFile file =
      if d.span.file = "" then { d with span := { d.span with file := file } } else d := by
  rw [inFile, Span.inFile]
  split <;> rfl

theorem errorCount_map_inFile (file : String) (ds : List Diagnostic) :
    errorCount (ds.map (inFile file)) = errorCount ds := List.countP_map

theorem warningCount_map_inFile (file : String) (ds : List Diagnostic) :
    warningCount (ds.map (inFile file)) = warningCount ds := List.countP_map

theorem errorCount_append (ds es : List Diagnostic) :
    errorCount (ds ++ es) = errorCount ds + errorCount es := List.countP_append

theorem warningCount_append (ds es : List Diagnostic) :
    warningCount (ds ++ es) = warningCount ds + warningCount es := List.countP_append

theorem hasErrors_iff (ds : List Diagnostic) : hasErrors ds = true ↔ 0 < errorCount ds := by
  rw [hasErrors, List.any_eq_true, errorCount, List.countP_pos_iff]

end Diagnostic

namespace Building

variable {ds : List Diagnostic}

theorem ShadowWarnings.isWarning (h : ShadowWarnings ds) {w : Diagnostic} (hw : w ∈ ds) :
    w.isWarning = true := by
  obtain ⟨d, outer, rfl⟩ := h w hw
  rfl

theorem ShadowWarnings.errorCount_eq (h : ShadowWarnings ds) : Diagnostic.errorCount ds = 0 := by
  rw [Diagnostic.errorCount, List.countP_eq_zero]
  intro w hw
  obtain ⟨d, outer, rfl⟩ := h w hw
  simp [Diagnostic.isError, shadowWarning]

end Building

namespace Resolving

variable {α : Type}

/-- One error is recorded for each failure, and nothing else. -/
theorem errorCount_recorded (results : List (Except ResolveError α)) :
    Diagnostic.errorCount (results.flatMap recorded) = results.countP fun r => !r.isOk := by
  induction results with
  | nil => rfl
  | cons r results ih =>
    rw [List.flatMap_cons, Diagnostic.errorCount_append, ih, List.countP_cons, Nat.add_comm]
    cases r <;> rfl

theorem warningCount_recorded (results : List (Except ResolveError α)) :
    Diagnostic.warningCount (results.flatMap recorded) = 0 := by
  induction results with
  | nil => rfl
  | cons r results ih =>
    rw [List.flatMap_cons, Diagnostic.warningCount_append, ih]
    cases r <;> rfl

end Resolving

/-! ## Reports -/

namespace Checker

/-- The outcomes of what is attempted are all outcomes, or those up to the first failure. -/
theorem map_attempted {ι : Type} (c : Checker) (es : List (Expr ι)) :
    (c.attempted es).map (Expr.typeIn c.env) =
      if c.failFast then
        (es.map (Expr.typeIn c.env)).take
          ((es.map (Expr.typeIn c.env)).findIdx (fun r => !r.isOk) + 1)
      else es.map (Expr.typeIn c.env) := by
  rw [attempted]
  split
  · rw [List.map_take, List.findIdx_map]
    rfl
  · rfl

end Checker

namespace BuiltUnit

variable {ι : Type}

theorem results_check_eq_map (b : BuiltUnit ι) (failFast : Bool) :
    (b.check failFast).results =
      (Checker.attempted { env := b.env, failFast := failFast } b.exprs).map
        (Expr.typeIn b.env) := by
  rw [check, Checker.resolveAll_eq]

theorem results_check (b : BuiltUnit ι) (failFast : Bool) :
    (b.check failFast).results =
      if failFast then
        (b.exprs.map (Expr.typeIn b.env)).take
          ((b.exprs.map (Expr.typeIn b.env)).findIdx (fun r => !r.isOk) + 1)
      else b.exprs.map (Expr.typeIn b.env) := by
  rw [results_check_eq_map]
  exact Checker.map_attempted { env := b.env, failFast := failFast } b.exprs

theorem exists_of_mem_results {b : BuiltUnit ι} {failFast : Bool} {r : Except ResolveError Ty}
    (h : r ∈ (b.check failFast).results) : ∃ e ∈ b.exprs, e.typeIn b.env = r := by
  rw [results_check] at h
  split at h
  · exact List.mem_map.1 (List.mem_of_mem_take h)
  · exact List.mem_map.1 h

theorem diagnostics_check (b : BuiltUnit ι) (failFast : Bool) :
    (b.check failFast).diagnostics =
      (b.diagnostics ++ (b.check failFast).results.flatMap Resolving.recorded).map
        (Diagnostic.inFile b.file) := by
  rw [check, Checker.resolveAll_eq]
  simp only [Checker.recording, List.nil_append, List.flatMap_map]

/-- **A report is the warnings of building followed by the failures.**  The results are the outcomes
of the expressions in order, up to the first failure if checking stops there.  The diagnostics are
those of building and then one for each result that is a failure; those without a file get the
unit's file, and nothing else about them changes.  So there are as many errors as failures and as
many warnings as there were after building, and the report has errors if and only if some result is
a failure. -/
theorem check_report (u : CompilationUnit ι) (b : BuiltUnit ι) (h : u.build = .ok b)
    (failFast : Bool) :
    let r := b.check failFast
    let outcomes := b.exprs.map (Expr.typeIn b.env)
    r.results =
        (if failFast then outcomes.take (outcomes.findIdx (fun o => !o.isOk) + 1) else outcomes) ∧
      r.diagnostics =
        (b.diagnostics ++ r.results.flatMap Resolving.recorded).map (fun d =>
          if d.span.file = "" then { d with span := { d.span with file := b.file } } else d) ∧
      Diagnostic.errorCount r.diagnostics = r.results.countP (fun o => !o.isOk) ∧
      Diagnostic.warningCount r.diagnostics = b.diagnostics.length ∧
      (∀ w ∈ b.diagnostics, w.isWarning = true) ∧
      (r.hasErrors = true ↔ ∃ e, .error e ∈ r.results) := by
  intro r outcomes
  have hbuilt := CompilationUnit.shadowWarnings_of_build h
  have hr : r.diagnostics =
      (b.diagnostics ++ r.results.flatMap Resolving.recorded).map (Diagnostic.inFile b.file) :=
    diagnostics_check b failFast
  have herrors : Diagnostic.errorCount r.diagnostics = r.results.countP fun o => !o.isOk := by
    rw [hr, Diagnostic.errorCount_map_inFile, Diagnostic.errorCount_append, hbuilt.errorCount_eq,
      Resolving.errorCount_recorded, Nat.zero_add]
  refine ⟨results_check b failFast, ?_, herrors, ?_, fun w hw => hbuilt.isWarning hw, ?_⟩
  · rw [hr]
    exact List.map_congr_left fun d _ => Diagnostic.inFile_eq b.file d
  · rw [hr, Diagnostic.warningCount_map_inFile, Diagnostic.warningCount_append,
      Resolving.warningCount_recorded, Nat.add_zero, Diagnostic.warningCount, List.countP_eq_length]
    exact fun w hw => hbuilt.isWarning hw
  · rw [Report.hasErrors, Diagnostic.hasErrors_iff, herrors, List.countP_pos_iff]
    constructor
    · rintro ⟨o, ho, hfails⟩
      cases o with
      | ok ty => cases hfails
      | error e => exact ⟨e, ho⟩
    · rintro ⟨e, he⟩
      exact ⟨.error e, he, rfl⟩

/-- A hidden declaration and three expressions, of which the first has a type and the others have
none: one warning in the file that its declaration names and two errors in the file of the unit, or
one error if checking stops there. -/
theorem check_report_hidden :
    let x (file : String) : Declaration :=
      { span := { file := file }, name := "x", kind := .var (.named "i32") }
    let u : CompilationUnit Unit :=
      { file := "a", declarations := [x ""], scopes := [⟨⟨0⟩, [x "b"]⟩],
        entries := [⟨⟨1⟩, .ident { id := () } "x"⟩, ⟨⟨1⟩, .lambda { id := () } []⟩,
          ⟨⟨0⟩, .call { id := () } (.ident { id := () } "x") []⟩] }
    ∃ b, u.build = .ok b ∧
      Diagnostic.errorCount (b.check false).diagnostics = 2 ∧
      Diagnostic.warningCount (b.check false).diagnostics = 1 ∧
      (b.check false).diagnostics.map (fun d => (d.code, d.span.file)) =
        [("W0006", "b"), ("E1900", "a"), ("E1013", "a")] ∧
      (b.check true).results.length = 2 ∧
      Diagnostic.errorCount (b.check true).diagnostics = 1 := by
  intro x u
  have hb : u.build = .ok u.described := CompilationUnit.build_eq_described (by decide) (by decide)
  obtain ⟨hall, hdiagnostics, herrors, hwarnings, -, -⟩ := check_report u u.described hb false
  obtain ⟨hfirst, -, herror, -, -, -⟩ := check_report u u.described hb true
  rw [hall] at hdiagnostics herrors
  rw [hfirst] at herror
  exact ⟨u.described, hb, herrors.trans (by decide +kernel), hwarnings.trans (by decide +kernel),
    (congrArg _ hdiagnostics).trans (by decide +kernel),
    (congrArg List.length hfirst).trans (by decide +kernel), herror.trans (by decide +kernel)⟩

end BuiltUnit

end UnitCheck
