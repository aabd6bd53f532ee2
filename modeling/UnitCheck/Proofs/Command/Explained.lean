import UnitCheck.Proofs.Command.Check

/-!
# Every diagnostic is explained

A diagnostic of a report comes from one of three places: a unit that cannot be loaded, a declaration
that hides another one, an expression without a type.  Each place has its own codes and one severity
(`Diagnostic.Coded`), and `Code.explanations` has an entry for each of these codes.

What is needed of the entries is said of the whole list, not of one code after the other: every code
is in capitals, and every text begins with its code.
-/

set_option autoImplicit false

namespace UnitCheck

namespace Code

/-! ## Letters of either case -/

theorem toUpper_toLower (c : Char) : c.toLower.toUpper = c.toUpper := by
  by_cases h : 'A'.val ≤ c.val ∧ c.val ≤ 'Z'.val
  · -- there are only 26 capitals to try
    have hcapital : ∀ n < 26, (Char.ofNat (65 + n)).toLower.toUpper =
        (Char.ofNat (65 + n)).toUpper := by decide
    have hmin : 65 ≤ c.toNat := h.1
    have hmax : c.toNat ≤ 90 := h.2
    have hc := hcapital (c.toNat - 65) (by omega)
    rwa [Nat.add_sub_cancel' hmin, Char.ofNat_toNat] at hc
  · have hlower : c.toLower = c := dif_neg h
    rw [hlower]

theorem map_toUpper_toLower (s : String) :
    s.toLower.map Char.toUpper = s.map Char.toUpper := by
  have hlower : s.toLower = s.map Char.toLower := rfl
  rw [hlower, ← String.toList_inj, String.toList_map, String.toList_map, String.toList_map,
    List.map_map]
  exact List.map_congr_left fun c _ => toUpper_toLower c

/-- The case of the letters of a code has no say in how it is explained. -/
theorem explanation?_eq_of_toLower_eq {a b : String} (h : a.toLower = b.toLower) :
    explanation? a = explanation? b := by
  rw [explanation?, explanation?, ← map_toUpper_toLower a, h, map_toUpper_toLower b]

/-! ## The explanations -/

theorem map_toUpper_of_mem_explanations {code : String} {lines : List String}
    (h : (code, lines) ∈ explanations) : code.map Char.toUpper = code := by
  have hall : ∀ p ∈ explanations, p.1.toList.map Char.toUpper = p.1.toList := by decide
  rw [← String.toList_inj, String.toList_map]
  exact hall _ h

/-- The first line of an explanation begins with the code that it explains. -/
theorem exists_title_of_mem_explanations {code : String} {lines : List String}
    (h : (code, lines) ∈ explanations) : ∃ title rest, lines = (code ++ title) :: rest := by
  have hall : ∀ p ∈ explanations, ∃ line ∈ p.2.head?, p.1.toList <+: line.toList := by decide
  obtain ⟨line, hline, title, htitle⟩ := hall _ h
  obtain ⟨rest, rfl⟩ := List.head?_eq_some_iff.1 hline
  refine ⟨String.ofList title, rest, ?_⟩
  rw [List.cons.injEq, ← String.toList_inj, String.toList_append, String.toList_ofList]
  exact ⟨htitle.symm, rfl⟩

/-- **A code in the list is explained by a text that begins with it.** -/
theorem exists_explanation? {code : String} (h : code ∈ explanations.map Prod.fst) :
    ∃ rest, explanation? code = some (code ++ rest) := by
  obtain ⟨p, hp, hcode⟩ := List.mem_map.1 h
  cases hlookup : explanations.lookup code with
  | none =>
    have hne := List.lookup_eq_none_iff.1 hlookup p hp
    rw [hcode, bne_self_eq_false] at hne
    cases hne
  | some lines =>
    obtain ⟨before, after, heq, -⟩ := List.lookup_eq_some_iff.1 hlookup
    have hmem : (code, lines) ∈ explanations := by rw [heq]; simp
    obtain ⟨title, rest, rfl⟩ := exists_title_of_mem_explanations hmem
    refine ⟨title ++ "\n" ++ ofLines rest, ?_⟩
    rw [explanation?, map_toUpper_of_mem_explanations hmem, hlookup, Option.map_some, ofLines,
      List.map_cons, String.join_cons, ← ofLines, String.append_assoc, String.append_assoc,
      String.append_assoc]

/-! ## The codes of each place -/

/-- The codes for units that cannot be loaded. -/
def ofLoading : List String := ["E0100", "E0101", "E0102", "E0103", "E0104"]

/-- The codes for expressions without a type. -/
def ofResolving : List String := ["E1002", "E1013", "E1900"]

/-- The codes for units that are checked. -/
def ofChecking : List String := "W0006" :: ofResolving

end Code

theorem ResolveError.code_mem (e : ResolveError) : e.code ∈ Code.ofResolving := by
  cases e <;> simp [code, Code.ofResolving, Code.unresolvedName, Code.notCallable,
    Code.notSupported]

theorem UnitError.code_mem (e : UnitError) : e.code ∈ Code.ofLoading := by
  have hall : Code.unreadableUnit ∈ Code.ofLoading ∧ Code.malformedUnit ∈ Code.ofLoading ∧
      Code.unknownScope ∈ Code.ofLoading ∧ Code.duplicateDeclaration ∈ Code.ofLoading ∧
      Code.queryDeclaration ∈ Code.ofLoading := by decide
  obtain ⟨hunreadable, hmalformed, hscope, hduplicate, hquery⟩ := hall
  cases e with
  | unreadable path reason => exact hunreadable
  | malformed => exact hmalformed
  | refused e =>
    cases e with
    | unknownScope s => exact hscope
    | duplicate name span previous => exact hduplicate
    | queryDeclaration name => exact hquery

theorem UnitError.code_toDiagnostic (file : String) (e : UnitError) :
    (e.toDiagnostic file).code = e.code := by
  unfold toDiagnostic
  split <;> rfl

namespace Diagnostic

/-- The diagnostic has one of the given codes, and is a warning exactly if that is the code for
hidden declarations. -/
structure Coded (codes : List String) (d : Diagnostic) : Prop where
  code_mem : d.code ∈ codes
  severity_eq : d.severity = if d.code = "W0006" then .warning else .error

theorem coded_of_error {codes : List String} {d : Diagnostic} (hcode : d.code ∈ codes)
    (hcodes : "W0006" ∉ codes) (hseverity : d.severity = .error) : d.Coded codes := by
  refine ⟨hcode, ?_⟩
  rw [hseverity, if_neg]
  intro hwarning
  exact hcodes (hwarning ▸ hcode)

theorem Coded.inFile {codes : List String} {d : Diagnostic} (h : d.Coded codes) (file : String) :
    (d.inFile file).Coded codes :=
  ⟨h.code_mem, h.severity_eq⟩

end Diagnostic

namespace BuiltUnit

/-- A unit that is checked has warnings about hidden declarations and errors about expressions. -/
theorem coded_of_mem_check {ι : Type} {u : CompilationUnit ι} {b : BuiltUnit ι}
    (h : u.build = .ok b) {failFast : Bool} {d : Diagnostic}
    (hd : d ∈ (b.check failFast).diagnostics) : d.Coded Code.ofChecking := by
  rw [diagnostics_check] at hd
  obtain ⟨raw, hraw, rfl⟩ := List.mem_map.1 hd
  refine Diagnostic.Coded.inFile ?_ b.file
  rcases List.mem_append.1 hraw with hwarning | hfailure
  · obtain ⟨d, outer, rfl⟩ := CompilationUnit.shadowWarnings_of_build h raw hwarning
    exact ⟨List.mem_cons_self, rfl⟩
  · obtain ⟨r, -, hr⟩ := List.mem_flatMap.1 hfailure
    cases r with
    | ok ty => cases hr
    | error e =>
      obtain rfl : raw = e.toDiagnostic := List.mem_singleton.1 hr
      have hcoded : e.toDiagnostic.Coded Code.ofResolving :=
        Diagnostic.coded_of_error e.code_mem (by decide) rfl
      exact ⟨List.mem_cons_of_mem _ hcoded.code_mem, hcoded.severity_eq⟩

end BuiltUnit

namespace Command

/-- A file without a unit has one error, about loading it. -/
theorem exists_coded_of_not_loads {files : Files} {path : String}
    (h : ¬∃ u b, Loads files path u b) (failFast : Bool) :
    ∃ d, (checkUnit files failFast path).1.diagnostics = [d] ∧ d.Coded Code.ofLoading := by
  cases hload : loadUnit files path with
  | ok b =>
    obtain ⟨u, hu⟩ := loadUnit_eq_ok_iff.1 hload
    exact absurd ⟨u, b, hu⟩ h
  | error e =>
    refine ⟨e.toDiagnostic path, by rw [checkUnit, hload]; rfl, ?_⟩
    refine Diagnostic.coded_of_error ?_ (by decide) (e.severity_toDiagnostic path)
    rw [UnitError.code_toDiagnostic]
    exact e.code_mem

/-- **Every diagnostic can be explained.**  Whatever is in a file, or if it cannot be read, each
diagnostic of the report on it has a code with an explanation that begins with the code, and is a
warning if the code is the one for hidden declarations and an error otherwise.  A unit that builds
has no codes but those of hidden declarations and of expressions without a type; a file without such
a unit has one diagnostic, with one of the codes for loading.  Codes that differ in the case of
letters only have the same explanation. -/
theorem checkUnit_explained (files : Files) (failFast : Bool) (path : String) :
    let report := (checkUnit files failFast path).1
    (∀ d ∈ report.diagnostics,
      (∃ rest, Code.explanation? d.code = some (d.code ++ rest)) ∧
        d.severity = if d.code = "W0006" then .warning else .error) ∧
    ((∃ u b, Loads files path u b) →
      ∀ d ∈ report.diagnostics, d.code ∈ ["W0006", "E1002", "E1013", "E1900"]) ∧
    ((¬∃ u b, Loads files path u b) →
      ∃ d, report.diagnostics = [d] ∧
        d.code ∈ ["E0100", "E0101", "E0102", "E0103", "E0104"]) ∧
    ∀ code code' : String, code.toLower = code'.toLower →
      Code.explanation? code = Code.explanation? code' := by
  intro report
  have hchecked : (∃ u b, Loads files path u b) →
      ∀ d ∈ report.diagnostics, d.Coded Code.ofChecking := by
    rintro ⟨u, b, hb⟩ d hd
    rw [show report = b.check failFast from report_of_loads hb failFast] at hd
    exact BuiltUnit.coded_of_mem_check hb.built hd
  have hfailed : (¬∃ u b, Loads files path u b) →
      ∃ d, report.diagnostics = [d] ∧ d.Coded Code.ofLoading :=
    fun h => exists_coded_of_not_loads h failFast
  have hknown : ∀ code ∈ Code.ofLoading ++ Code.ofChecking,
      code ∈ Code.explanations.map Prod.fst := by decide
  refine ⟨fun d hd => ?_, fun h d hd => (hchecked h d hd).code_mem, fun h => ?_,
    fun _ _ h => Code.explanation?_eq_of_toLower_eq h⟩
  · by_cases h : ∃ u b, Loads files path u b
    · have hcoded := hchecked h d hd
      exact ⟨Code.exists_explanation? (hknown _ (List.mem_append_right _ hcoded.code_mem)),
        hcoded.severity_eq⟩
    · obtain ⟨e, he, hcoded⟩ := hfailed h
      rw [he, List.mem_singleton] at hd
      rw [hd]
      exact ⟨Code.exists_explanation? (hknown _ (List.mem_append_left _ hcoded.code_mem)),
        hcoded.severity_eq⟩
  · obtain ⟨d, hd, hcoded⟩ := hfailed h
    exact ⟨d, hd, hcoded.code_mem⟩

end Command

end UnitCheck
