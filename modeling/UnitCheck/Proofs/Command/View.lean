import Mathlib.Data.List.Basic
import UnitCheck.Command.Run

/-!
# What a command looks at

The program cannot take in all files before it starts.  It reads the places that a command line
names, where a directory is read for the names in it only, and then the units in those directories
(`Invocation.view`).  That is enough: a command does the same with what has been read as with all
files (`Invocation.run_view`).
-/

set_option autoImplicit false

namespace UnitCheck

/-! ## What reading a place brings -/

namespace FileTree

mutual

/-- The tree with nothing in its files. -/
def emptied : FileTree → FileTree
  | .file _ => .file .empty
  | .dir entries => .dir (emptiedAll entries)

/-- The entries of a directory with nothing in any file. -/
def emptiedAll : List (String × FileTree) → List (String × FileTree)
  | [] => []
  | (name, t) :: rest => (name, t.emptied) :: emptiedAll rest

end

/-- What reading a place brings: the bytes of a file, or the names in a directory. -/
def outline : FileTree → FileTree
  | .file content => .file content
  | .dir entries => .dir (emptiedAll entries)

mutual

theorem filePaths_emptied (t : FileTree) : t.emptied.filePaths = t.filePaths := by
  cases t with
  | file content => rw [emptied, filePaths, filePaths]
  | dir entries => rw [emptied, filePaths, filePaths, entryPaths_emptiedAll entries]

theorem entryPaths_emptiedAll (entries : List (String × FileTree)) :
    entryPaths (emptiedAll entries) = entryPaths entries := by
  cases entries with
  | nil => rfl
  | cons e rest =>
    obtain ⟨name, t⟩ := e
    rw [emptiedAll, entryPaths, entryPaths, filePaths_emptied t, entryPaths_emptiedAll rest]

end

theorem unitPaths_emptiedAll (entries : List (String × FileTree)) :
    unitPaths (emptiedAll entries) = unitPaths entries := by
  rw [unitPaths, entryPaths_emptiedAll, unitPaths]

end FileTree

namespace Files

/-- What has been seen at a path is what reading it brings. -/
def ReadAt (files seen : Files) (path : String) : Prop :=
  seen.look path = (files.look path).map FileTree.outline

section

variable {files seen : Files} {path : String} {paths : List String}

theorem ReadAt.isFile_eq (h : files.ReadAt seen path) : seen.isFile path = files.isFile path := by
  rw [isFile, isFile, h]
  rcases files.look path with e | content | entries <;> rfl

theorem ReadAt.readText_eq (h : files.ReadAt seen path) :
    seen.readText path = files.readText path := by
  rw [readText, readText, h]
  rcases files.look path with e | content | entries <;> rfl

theorem ReadAt.unitsOf_eq (h : files.ReadAt seen path) :
    seen.unitsOf path = files.unitsOf path := by
  rw [unitsOf, unitsOf, h]
  rcases files.look path with e | content | entries
  · rfl
  · rfl
  · simp only [Except.map, FileTree.outline, FileTree.unitPaths_emptiedAll]

theorem unitsAt_eq_of_readAt (h : ∀ path ∈ paths, files.ReadAt seen path) :
    seen.unitsAt paths = files.unitsAt paths :=
  List.flatMap_congr fun path hpath => (h path hpath).unitsOf_eq

/-- What reading some paths brings. -/
def ofReading (read : String → Except FileError FileTree) (paths : List String) : Files :=
  ofPlaces (paths.map fun path => (path, read path))

theorem look_ofReading (read : String → Except FileError FileTree) (h : path ∈ paths) :
    (ofReading read paths).look path = read path := by
  show ((paths.map fun p => (p, read p)).lookup path).getD _ = _
  induction paths with
  | nil => cases h
  | cons p rest ih =>
    rw [List.map_cons, List.lookup_cons]
    by_cases hp : path = p
    · simp [hp]
    · have hbeq : (path == p) = false := by simpa using hp
      rw [hbeq]
      exact ih ((List.mem_cons.1 h).resolve_left hp)

end

end Files

/-! ## Commands -/

namespace Command

theorem checkUnit_congr {files seen : Files} {path : String}
    (h : seen.readText path = files.readText path) (failFast : Bool) :
    checkUnit seen failFast path = checkUnit files failFast path := by
  rw [checkUnit, loadUnit, h, checkUnit, loadUnit]

theorem runCheck_congr {files seen : Files} {paths : List String}
    (hunits : seen.unitsAt paths = files.unitsAt paths)
    (hread : ∀ path ∈ files.unitsAt paths, seen.readText path = files.readText path)
    (failFast : Bool) (format : OutputFormat) :
    runCheck seen failFast format paths = runCheck files failFast format paths := by
  have hreports : (files.unitsAt paths).map (checkUnit seen failFast) =
      (files.unitsAt paths).map (checkUnit files failFast) :=
    List.map_congr_left fun path hpath => checkUnit_congr (hread path hpath) failFast
  rw [runCheck, hunits, hreports, runCheck]

end Command

namespace Invocation

theorem loadConfig_congr {i : Invocation} {files seen : Files}
    (h : files.ReadAt seen (i.config.getD Config.defaultPath)) :
    i.loadConfig seen = i.loadConfig files := by
  obtain ⟨command, json, verbose, config⟩ := i
  cases config with
  | none =>
    have hfile : seen.isFile Config.defaultPath = files.isFile Config.defaultPath := h.isFile_eq
    have htext : seen.readText Config.defaultPath = files.readText Config.defaultPath :=
      h.readText_eq
    simp only [loadConfig, Config.discover, Config.load, hfile, htext]
  | some path =>
    have htext : seen.readText path = files.readText path := h.readText_eq
    simp only [loadConfig, Config.load, htext]

/-- A command goes by what it finds at the places that it names and in the units there. -/
theorem run_congr {i : Invocation} {files seen : Files}
    (hplaces : ∀ path ∈ i.places, files.ReadAt seen path)
    (hunits : ∀ path ∈ files.unitsAt i.checked, files.ReadAt seen path) :
    i.run seen = i.run files := by
  obtain ⟨hconfig, hnamed⟩ := List.forall_mem_cons.1 hplaces
  rw [run, loadConfig_congr hconfig, run]
  obtain ⟨command, json, verbose, config⟩ := i
  cases command with
  | check paths failFast =>
    have hsame := Files.unitsAt_eq_of_readAt hnamed
    simp only [Command.runCheck_congr hsame fun path hpath => (hunits path hpath).readText_eq]
  | deps path =>
    have htext := (hnamed path List.mem_cons_self).readText_eq
    simp only [Command.runDeps, Command.loadUnit, htext]
  | explain code => rfl

theorem checked_subset (i : Invocation) : i.checked ⊆ i.places := by
  obtain ⟨command, json, verbose, config⟩ := i
  cases command with
  | check paths failFast => exact List.subset_cons_self _ _
  | deps | explain => exact List.nil_subset _

/-- What has been read for a command: the units that are found at its places, and the places. -/
theorem view_eq (i : Invocation) (read : String → Except FileError FileTree) :
    i.view (m := Id) read = Files.ofReading read
      ((Files.ofReading read i.places).unitsAt i.checked ++ i.places) := by
  have hmap (paths : List String) :
      List.mapM (m := Id) (fun path => pure (path, read path)) paths =
        paths.map fun path => (path, read path) := List.mapM_pure
  simp only [Files.ofReading, List.map_append]
  simp only [← hmap]
  rfl

/-- **A command sees all that it looks at**: with what has been read for it, it does the same as
with all files. -/
theorem run_view (i : Invocation) (files : Files) :
    i.run (i.view (m := Id) fun path => (files.look path).map FileTree.outline) = i.run files := by
  let read path := (files.look path).map FileTree.outline
  have hunits : (Files.ofReading read i.places).unitsAt i.checked = files.unitsAt i.checked :=
    Files.unitsAt_eq_of_readAt fun path hpath => Files.look_ofReading read (i.checked_subset hpath)
  rw [view_eq, hunits]
  refine run_congr (fun path hpath => ?_) fun path hpath => ?_
  · exact Files.look_ofReading read (List.mem_append_right _ hpath)
  · exact Files.look_ofReading read (List.mem_append_left _ hpath)

end Invocation

end UnitCheck
