import UnitCheck.Proofs.Command.Check
import UnitCheck.Proofs.Diagnostic.RoundTrip

/-!
# The text of a report

A report is printed with its keys in order, on one line.  The line has the file, a result for every
expression and the diagnostics, and all of it is read back from there: the diagnostics as from their
own text, although their keys stand in another order (`Report.toJson_readable`).
-/

set_option autoImplicit false

namespace UnitCheck

open Json (EveryObject)

/-! ## What a report looks like -/

namespace Report

/-- The document of a result with its position.  A position of more than 64 bits is a number like
any other one that is too large, and its value is not kept. -/
inductive ResultDoc (i : Nat) : Except ResolveError Ty → Json → Prop
  | ok (ty : Ty) {index : Json} (h : i < UInt64.size → index = .nat i) :
    ResultDoc i (.ok ty) (.obj [("index", index), ("type", .str ty.name)])
  | error (e : ResolveError) {index : Json} (h : i < UInt64.size → index = .nat i) :
    ResultDoc i (.error e) (.obj [("error", .str e.code), ("index", index)])

theorem resultDoc_reread (result : Except ResolveError Ty) (i : Nat) :
    ResultDoc i result (resultToJson result i).sortKeys.reread := by
  have hindex : i < UInt64.size → (Json.nat i).reread = .nat i := fun h =>
    (Json.Plain.nat h).reread_eq
  cases result with
  | ok ty =>
    have hsorted : Json.sortMembers [("index", .nat i), ("type", .str ty.name)] =
        [("index", .nat i), ("type", .str ty.name)] :=
      Json.sortMembers_eq (.refl _) (show Json.Ascending ["index", "type"] by decide)
    rw [resultToJson, Json.sortKeys, hsorted, Json.reread, Json.rereadMembers_eq_map]
    exact .ok ty hindex
  | error e =>
    have hsorted : Json.sortMembers [("index", .nat i), ("error", .str e.code)] =
        [("error", .str e.code), ("index", .nat i)] :=
      Json.sortMembers_eq (.swap _ _ _) (show Json.Ascending ["error", "index"] by decide)
    rw [resultToJson, Json.sortKeys, hsorted, Json.reread, Json.rereadMembers_eq_map]
    exact .error e hindex

theorem distinctKeys_resultToJson (result : Except ResolveError Ty) (i : Nat) :
    EveryObject List.Nodup (resultToJson result i) := by
  cases result with
  | ok ty => exact .obj (by simp) (by simp [EveryObject.str, EveryObject.nat])
  | error e => exact .obj (by simp) (by simp [EveryObject.str, EveryObject.nat])

theorem everyObject_toJson (r : Report) : EveryObject Json.Ascending r.toJson := by
  have hresults : EveryObject List.Nodup
      (.arr (r.results.zipIdx.map fun p => resultToJson p.1 p.2)) :=
    .arr (List.forall_mem_map.2 fun p _ => distinctKeys_resultToJson p.1 p.2)
  refine EveryObject.sortKeys (.obj (by simp) ?_)
  simp [EveryObject.str, hresults, Diagnostic.distinctKeys_listToJson]

theorem depth_resultToJson (result : Except ResolveError Ty) (i : Nat) :
    (resultToJson result i).depth = 1 := by
  cases result with
  | ok ty => rfl
  | error e => rfl

theorem depth_toJson_le (r : Report) : r.toJson.depth ≤ Json.maxDepth := by
  have hresults : Json.depths (r.results.zipIdx.map fun p => resultToJson p.1 p.2) ≤ 1 :=
    Json.depths_le_iff.2
      (List.forall_mem_map.2 fun p _ => Nat.le_of_eq (depth_resultToJson p.1 p.2))
  have hdiagnostics := Diagnostic.depth_listToJson_le r.diagnostics
  rw [toJson, Json.depth_sortKeys, Json.depth]
  simp only [Json.memberDepths, Json.depth, Json.maxDepth]
  omega

/-- Of the document that is printed, the indices of results are all that may not be read back. -/
theorem reread_toJson (r : Report) :
    r.toJson.reread = .obj
      [("diagnostics", (Diagnostic.listToJson r.diagnostics).sortKeys),
        ("file", .str r.file),
        ("results", .arr (r.results.zipIdx.map fun p =>
          (resultToJson p.1 p.2).sortKeys.reread))] := by
  have hdiagnostics := (Diagnostic.plain_listToJson r.diagnostics).sortKeys.reread_eq
  have hsorted (file results diagnostics : Json) :
      Json.sortMembers [("file", file), ("results", results), ("diagnostics", diagnostics)] =
        [("diagnostics", diagnostics.sortKeys), ("file", file.sortKeys),
          ("results", results.sortKeys)] :=
    Json.sortMembers_eq (List.perm_append_singleton _ [_, _]).symm
      (show Json.Ascending ["diagnostics", "file", "results"] by decide)
  rw [toJson, Json.sortKeys, hsorted]
  simp [Json.sortKeys, Json.reread, Json.rereadMembers, Json.sortKeysAll_eq_map,
    Json.rereadAll_eq_map, hdiagnostics]

end Report

/-! ## What is printed -/

section Lines

variable {α : Type} (line : α → String)

theorem Printed.foldl_append_outLine (out err : String) (as : List α) :
    (as.map fun a => outLine (line a)).foldl append { out, err } =
      { out := out ++ String.join (as.map fun a => line a ++ "\n"), err } := by
  induction as generalizing out with
  | nil => simp
  | cons a rest ih =>
    have happend : append { out, err } (outLine (line a)) =
        { out := out ++ (line a ++ "\n"), err } := by
      simp [append, outLine]
    rw [List.map_cons, List.foldl_cons, happend, ih]
    simp [String.append_assoc]

/-- Lines are printed one after the other, and nothing besides them. -/
theorem Printed.all_map_outLine (as : List α) :
    all (as.map fun a => outLine (line a)) =
      { out := String.join (as.map fun a => line a ++ "\n") } := by
  rw [all, foldl_append_outLine, String.empty_append]

variable {line}

theorem count_newline_join (h : ∀ a, Json.OneLine (line a)) (as : List α) :
    (String.join (as.map fun a => line a ++ "\n")).toList.count '\n' = as.length := by
  induction as with
  | nil => rfl
  | cons a rest ih =>
    have hline : (line a).toList.count '\n' = 0 :=
      List.count_eq_zero.2 fun hmem => absurd (h a _ hmem) (by decide)
    have hend : "\n".toList.count '\n' = 1 := rfl
    rw [List.map_cons, String.join_cons, String.toList_append, String.toList_append,
      List.count_append, List.count_append, hline, hend, ih, List.length_cons, Nat.zero_add,
      Nat.add_comm]

end Lines

namespace Command

theorem printReports_json (reports : List (Report × String)) (summary : Summary) :
    printReports reports summary .json =
      { out := String.join (reports.map fun p => p.1.toJson.render ++ "\n") } := by
  rw [printReports]
  exact Printed.all_map_outLine (fun p : Report × String => p.1.toJson.render) reports

/-- The reports on all units are printed, one line each. -/
theorem runCheck_json {files : Files} {paths : List String} (h : files.unitsAt paths ≠ [])
    (failFast : Bool) :
    ∃ run, runCheck files failFast .json paths = .ok run ∧
      run.printed = { out := String.join ((files.unitsAt paths).map fun path =>
        (checkUnit files failFast path).1.toJson.render ++ "\n") } := by
  rw [runCheck, if_neg (by rwa [List.isEmpty_iff])]
  refine ⟨_, rfl, ?_⟩
  simp only [printReports_json, List.map_map, Function.comp_def]

end Command

/-! ## Through the text -/

/-- **A report survives its text.**  The text of any report is one line.  It is read as a document
that nests no deeper than is allowed and in which the keys of every object, at any depth, ascend
without repetition.  The document has exactly the members `diagnostics`, `file` and `results`: one
result per result of the report, at its index and with either its type or the code of its error, and
the diagnostics of the report, as they are read from their own text.

So `check` with documents for output prints as many lines as there are units, the texts of the
reports on them. -/
theorem Report.toJson_readable :
    (∀ r : Report, Json.OneLine r.toJson.render ∧
      ∃ document, Json.parse r.toJson.render = some document ∧
        document.depth ≤ Json.maxDepth ∧ EveryObject Json.Ascending document ∧
        ∃ diagnostics results,
          document = .obj
            [("diagnostics", diagnostics), ("file", .str r.file), ("results", .arr results)] ∧
          results.length = r.results.length ∧
          (∀ i result, r.results[i]? = some result →
            ∃ j, results[i]? = some j ∧ ResultDoc i result j) ∧
          Diagnostic.listOfJson? diagnostics = some r.diagnostics ∧
          (Json.parse (Diagnostic.listToJson r.diagnostics).render).bind Diagnostic.listOfJson? =
            Diagnostic.listOfJson? diagnostics) ∧
    ∀ (i : Invocation) (files : Files) (config : Config) (paths : List String) (failFast : Bool),
      i.json = true → i.command = .check paths failFast → i.loadConfig files = .ok config →
      files.unitsAt paths ≠ [] →
      ∃ o, i.run files = .ok o ∧ o.printed.err = "" ∧
        o.printed.out = String.join ((files.unitsAt paths).map fun path =>
          (Command.checkUnit files (config.failFast || failFast) path).1.toJson.render ++ "\n") ∧
        o.printed.out.toList.count '\n' = (files.unitsAt paths).length := by
  refine ⟨fun r => ⟨Json.oneLine_render _, r.toJson.reread, Json.parse_render_reread _, ?_,
    r.everyObject_toJson.reread, _, _, r.reread_toJson, ?_, ?_, ?_, ?_⟩, ?_⟩
  · rw [Json.depth_reread]
    exact r.depth_toJson_le
  · simp
  · intro i result hresult
    exact ⟨_, by simp [hresult], resultDoc_reread result i⟩
  · rw [Diagnostic.keyBlind_listOfJson?, Diagnostic.listOfJson?_listToJson]
  · rw [Diagnostic.keyBlind_listOfJson?, Json.parse_render (Diagnostic.plain_listToJson _),
      Option.bind_some]
  · intro i files config paths failFast hjson hcommand hconfig hunits
    obtain ⟨run, hrun, hprinted⟩ := Command.runCheck_json hunits (config.failFast || failFast)
    refine ⟨run.outcome, ?_, ?_⟩
    · simp [Invocation.run, hconfig, hcommand, hjson, hrun, Except.map]
    · rw [CheckRun.outcome, hprinted]
      exact ⟨rfl, rfl, count_newline_join (fun _ => Json.oneLine_render _) _⟩

end UnitCheck
