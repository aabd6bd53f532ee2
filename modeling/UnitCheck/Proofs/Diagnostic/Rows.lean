import Mathlib.Algebra.GroupWithZero.Nat
import Mathlib.Data.List.Forall2
import UnitCheck.Diagnostic.Text

/-!
# The rows of a diagnostic's text

The text of a diagnostic is made up of rows: two at its head, three that show a line of the source
if there is such a line, and one for each note.  `Diagnostic.Block` says what the rows are like, and
`Diagnostic.text_rows` that the text of a diagnostic and of a list of them is made up of such rows.

The lines of a source are read character by character.  `Source.split` says in one step what they
are, and `Source.lines_eq` that the two agree.
-/

set_option autoImplicit false

namespace UnitCheck

/-! ## Lines of a source -/

namespace Source

/-- A line without the carriage return at its end, if there is one. -/
def dropReturn (line : List Char) : List Char :=
  if line.getLast? = some '\r' then line.dropLast else line

/-- The lines of a text are the pieces between its line feeds.  A carriage return in front of a line
feed goes with it, and what is behind the last line feed is a line unless it is empty. -/
def split (text : List Char) : List (List Char) :=
  (text.splitOn '\n').dropLast.map dropReturn ++
    (text.splitOn '\n').getLast?.toList.filter fun line => !line.isEmpty

variable {line : List Char}

theorem endLine_eq (line : List Char) : endLine line = dropReturn line.reverse := by
  cases line with
  | nil => rfl
  | cons c line =>
    by_cases hc : c = '\r'
    · subst hc
      simp [endLine, dropReturn]
    · simp [endLine, dropReturn, hc]

theorem split_of_notMem (h : '\n' ∉ line) : split line = if line = [] then [] else [line] := by
  rw [split, List.splitOn_eq_singleton h]
  cases line with
  | nil => rfl
  | cons c line => rfl

theorem splitOn_append_feed (h : '\n' ∉ line) (rest : List Char) :
    (line ++ '\n' :: rest).splitOn '\n' = line :: rest.splitOn '\n' := by
  have hcut := List.splitOnP_append_cons (p := fun c => c == '\n') line rest (beq_self_eq_true _)
  simp only [← List.splitOn_eq_splitOnP] at hcut
  rw [hcut, List.splitOn_eq_singleton h, List.singleton_append]

theorem split_append (h : '\n' ∉ line) (rest : List Char) :
    split (line ++ '\n' :: rest) = dropReturn line :: split rest := by
  obtain ⟨first, more, hrest⟩ := List.exists_cons_of_ne_nil (List.splitOn_ne_nil '\n' rest)
  rw [split, split, splitOn_append_feed h, hrest, List.dropLast_cons_cons, List.map_cons,
    List.getLast?_cons_cons, List.cons_append]

theorem linesFrom_feed (line rest : List Char) :
    linesFrom line ('\n' :: rest) = dropReturn line.reverse :: linesFrom [] rest := by
  rw [← endLine_eq]
  cases line <;> rfl

theorem linesFrom_cons {c : Char} (hc : c ≠ '\n') (line rest : List Char) :
    linesFrom line (c :: rest) = linesFrom (c :: line) rest := by
  cases line <;> simp [linesFrom]

theorem linesFrom_eq (h : '\n' ∉ line) (rest : List Char) :
    linesFrom line rest = split (line.reverse ++ rest) := by
  -- a line feed ends the line read so far, so that this has none in it at any step
  induction rest generalizing line with
  | nil =>
    rw [List.append_nil, split_of_notMem (by simpa using h)]
    cases line with
    | nil => rfl
    | cons c line => simp [linesFrom]
  | cons c rest ih =>
    by_cases hc : c = '\n'
    · subst hc
      rw [split_append (by simpa using h), linesFrom_feed, ih (by simp), List.reverse_nil,
        List.nil_append]
    · rw [linesFrom_cons hc, ih (by simp [h, Ne.symm hc]), List.reverse_cons, List.append_assoc,
        List.singleton_append]

/-- **The lines of a source** are what is cut out of it at its line feeds. -/
theorem lines_eq (text : String) : lines text = (split text.toList).map String.ofList := by
  rw [lines, linesFrom_eq (by simp), List.reverse_nil, List.nil_append]

theorem feed_notMem_dropReturn (h : '\n' ∉ line) : '\n' ∉ dropReturn line := by
  rw [dropReturn]
  split
  · exact fun hmem => h (List.dropLast_subset _ hmem)
  · exact h

theorem feed_notMem_linesFrom (h : '\n' ∉ line) (rest : List Char) :
    ∀ l ∈ linesFrom line rest, '\n' ∉ l := by
  induction rest generalizing line with
  | nil =>
    cases line with
    | nil => simp [linesFrom]
    | cons c line => simpa [linesFrom, and_comm] using h
  | cons c rest ih =>
    by_cases hc : c = '\n'
    · subst hc
      rw [linesFrom_feed]
      exact List.forall_mem_cons.2 ⟨feed_notMem_dropReturn (by simpa using h), ih (by simp)⟩
    · rw [linesFrom_cons hc]
      exact ih (by simp [h, Ne.symm hc])

end Source

/-! ## Rows -/

/-- There is no line feed in a text. -/
def OneRow (text : String) : Prop := '\n' ∉ text.toList

instance (text : String) : Decidable (OneRow text) :=
  inferInstanceAs (Decidable (¬_))

@[simp]
theorem oneRow_append (a b : String) : OneRow (a ++ b) ↔ OneRow a ∧ OneRow b := by
  rw [OneRow, String.toList_append, List.mem_append, not_or, OneRow, OneRow]

theorem oneRow_repr (n : Nat) : OneRow n.repr := by
  intro h
  have hdigit := Nat.isDigit_of_mem_toDigits (by decide) (by decide)
    (show '\n' ∈ Nat.toDigits 10 n by simpa [Nat.repr] using h)
  exact absurd hdigit (by decide)

theorem oneRow_of_mem_lines {source line : String} (h : line ∈ Source.lines source) :
    OneRow line := by
  obtain ⟨cs, hcs, rfl⟩ := List.mem_map.1 h
  rw [OneRow, String.toList_ofList]
  exact Source.feed_notMem_linesFrom (by simp) _ cs hcs

/-- The text is made up of these rows, each with a line feed at its end and nowhere else. -/
structure Rows (text : String) (rows : List String) : Prop where
  eq : text = String.join (rows.map (· ++ "\n"))
  oneRow : ∀ row ∈ rows, OneRow row

namespace Rows

theorem nil : Rows "" [] := ⟨rfl, by simp⟩

theorem append {a b : String} {rows more : List String} (h : Rows a rows) (h' : Rows b more) :
    Rows (a ++ b) (rows ++ more) := by
  refine ⟨?_, List.forall_mem_append.2 ⟨h.oneRow, h'.oneRow⟩⟩
  rw [h.eq, h'.eq, List.map_append, String.join_append]

/-- Texts with a line feed between them are made up of their rows and of empty rows between
these. -/
theorem intercalate {texts : List String} {blocks : List (List String)}
    (h : List.Forall₂ Rows texts blocks) :
    Rows ("\n".intercalate texts) (List.intercalate [""] blocks) := by
  have hfeed : Rows "\n" [""] := ⟨rfl, by simp [OneRow]⟩
  induction h with
  | nil => exact nil
  | @cons text rows texts blocks hrows hrest ih =>
    -- only where another text comes next is there a line feed in between
    cases hrest with
    | nil => simpa using hrows
    | cons hnext hmore =>
      rw [String.intercalate_cons_cons, List.intercalate_cons_cons]
      exact (hrows.append hfeed).append ih

theorem length_intercalate {blocks : List (List String)} (h : blocks ≠ []) :
    (List.intercalate [""] blocks).length =
      (blocks.map List.length).sum + (blocks.length - 1) := by
  induction blocks with
  | nil => exact absurd rfl h
  | cons rows rest ih =>
    cases rest with
    | nil => simp
    | cons next more =>
      have hrest := ih (by simp)
      rw [List.intercalate_cons_cons, List.length_append, List.length_append, hrest]
      simp only [List.map_cons, List.sum_cons, List.length_cons, List.length_nil]
      omega

end Rows

/-! ## The text of a diagnostic -/

namespace Diagnostic

/-- There is no line feed in anything that a diagnostic says. -/
structure OneLined (d : Diagnostic) : Prop where
  code : OneRow d.code
  message : OneRow d.message
  file : OneRow d.span.file
  notes : ∀ n ∈ d.notes, OneRow n.message

/-- The source has the line that a diagnostic starts on. -/
def Shown (source : String) (d : Diagnostic) : Prop :=
  1 ≤ d.span.startLine.toNat ∧ d.span.startLine.toNat ≤ (Source.split source.toList).length

instance (source : String) (d : Diagnostic) : Decidable (d.Shown source) :=
  inferInstanceAs (Decidable (_ ∧ _))

def rowCount (source : String) (d : Diagnostic) : Nat :=
  2 + 3 * (if d.Shown source then 1 else 0) + d.notes.length

/-- The rows of a diagnostic: as many as there have to be, and the fourth one has the source line
behind its number, which is at the right end of three columns. -/
structure Block (source : String) (d : Diagnostic) (rows : List String) : Prop where
  made : Rows (d.text source) rows
  length : rows.length = d.rowCount source
  sourceRow : d.Shown source →
    ∃ line, (Source.split source.toList)[d.span.startLine.toNat - 1]? = some line ∧
      rows[3]? = some (String.ofList
        (List.leftpad 3 ' ' (Nat.toDigits 10 d.span.startLine.toNat) ++ " | ".toList ++ line))

/-! ### The source line -/

section

variable {source : String} {d : Diagnostic}

theorem sourceLine?_of_shown (h : d.Shown source) :
    ∃ line, (Source.split source.toList)[d.span.startLine.toNat - 1]? = some line ∧
      sourceLine? source d.span = some (String.ofList line) := by
  obtain ⟨hpos, hle⟩ := h
  have hne : d.span.startLine ≠ 0 := by
    intro h
    rw [h] at hpos
    exact absurd hpos (by decide)
  refine ⟨_, List.getElem?_eq_getElem (by omega), ?_⟩
  rw [sourceLine?, if_neg hne, Source.lines_eq, List.getElem?_map, List.getElem?_eq_getElem,
    Option.map_some]

theorem sourceLine?_of_not_shown (h : ¬d.Shown source) : sourceLine? source d.span = none := by
  rw [sourceLine?]
  split
  · rfl
  · rename_i hne
    have hpos : d.span.startLine.toNat ≠ 0 := fun h => hne (UInt64.toNat_inj.1 h)
    rw [Source.lines_eq, List.getElem?_map, Option.map_eq_none_iff, List.getElem?_eq_none_iff]
    rw [Shown] at h
    omega

end

/-! ### Rows of the parts -/

def headRows (d : Diagnostic) : List String := [d.headline, d.locationLine]

def excerptRows (s : Span) (line : String) : List String :=
  ["   |", lineNumber s.startLine.toNat ++ " | " ++ line,
    "   | " ++ repeatChar (s.startCol.toNat - 1) ' ' ++ repeatChar (underlineLength s line) '^']

def noteRow (n : Note) : String := "   = note: " ++ n.message

theorem text_eq (source : String) (d : Diagnostic) :
    d.text source = String.join (d.headRows.map (· ++ "\n")) ++
      ((sourceLine? source d.span).map (excerpt d.span)).getD "" ++
        String.join ((d.notes.map noteRow).map (· ++ "\n")) := by
  have hhead : d.head = String.join (d.headRows.map (· ++ "\n")) :=
    String.toList_injective (by simp [head, headRows])
  rw [text, textWith, hhead, List.map_map]
  rfl

theorem excerpt_eq (s : Span) (line : String) :
    excerpt s line = String.join ((excerptRows s line).map (· ++ "\n")) :=
  String.toList_injective (by simp [excerpt, excerptRows])

theorem oneRow_repeatChar (n : Nat) {c : Char} (hc : c ≠ '\n') : OneRow (repeatChar n c) := by
  rw [OneRow, repeatChar, String.toList_ofList, List.mem_replicate]
  exact fun h => hc h.2.symm

theorem lineNumber_eq (n : Nat) :
    lineNumber n = String.ofList (List.leftpad 3 ' ' (Nat.toDigits 10 n)) := by
  refine String.toList_injective ?_
  simp [lineNumber, repeatChar, List.leftpad, Nat.repr]

section

variable {source : String} {d : Diagnostic}

theorem OneLined.headRows (h : d.OneLined) : ∀ row ∈ d.headRows, OneRow row := by
  have hname : OneRow d.severity.name := by
    cases d.severity <;> simp [OneRow, Severity.name]
  have hpunctuation : OneRow "[" ∧ OneRow "]: " ∧ OneRow "  --> " ∧ OneRow ":" := by
    simp [OneRow]
  simp [Diagnostic.headRows, headline, locationLine, Span.header, hname, hpunctuation, h.code,
    h.message, h.file, oneRow_repr]

theorem oneRow_excerptRows (s : Span) {line : String} (h : OneRow line) :
    ∀ row ∈ excerptRows s line, OneRow row := by
  have hmargin : OneRow "   |" ∧ OneRow " | " ∧ OneRow "   | " := by simp [OneRow]
  simp [excerptRows, lineNumber, hmargin, h, oneRow_repr, oneRow_repeatChar]

theorem OneLined.noteRows (h : d.OneLined) : ∀ row ∈ d.notes.map noteRow, OneRow row := by
  have hmargin : OneRow "   = note: " := by simp [OneRow]
  refine List.forall_mem_map.2 fun n hn => ?_
  rw [noteRow, oneRow_append]
  exact ⟨hmargin, h.notes n hn⟩

/-- A diagnostic that says nothing with a line feed in it has the rows it should have. -/
theorem OneLined.exists_block (source : String) (h : d.OneLined) :
    ∃ rows, d.Block source rows := by
  have hhead : Rows (String.join (d.headRows.map (· ++ "\n"))) d.headRows := ⟨rfl, h.headRows⟩
  have hnotes : Rows (String.join ((d.notes.map noteRow).map (· ++ "\n"))) (d.notes.map noteRow) :=
    ⟨rfl, h.noteRows⟩
  by_cases hshown : d.Shown source
  · obtain ⟨line, hsplit, hline⟩ := sourceLine?_of_shown hshown
    have hmem : String.ofList line ∈ Source.lines source := by
      rw [Source.lines_eq]
      exact List.mem_map_of_mem (List.mem_of_getElem? hsplit)
    have hexcerpt : Rows (excerpt d.span (String.ofList line))
        (excerptRows d.span (String.ofList line)) :=
      ⟨excerpt_eq _ _, oneRow_excerptRows d.span (oneRow_of_mem_lines hmem)⟩
    refine ⟨d.headRows ++ excerptRows d.span (String.ofList line) ++ d.notes.map noteRow,
      ?_, ?_, fun _ => ⟨line, hsplit, ?_⟩⟩
    · rw [text_eq, hline]
      exact (hhead.append hexcerpt).append hnotes
    · rw [List.length_append, List.length_append, List.length_map, rowCount, if_pos hshown]
      rfl
    · show some (lineNumber d.span.startLine.toNat ++ " | " ++ String.ofList line) = _
      rw [lineNumber_eq, String.ofList_append, String.ofList_append, String.ofList_toList]
  · refine ⟨d.headRows ++ d.notes.map noteRow, ?_, ?_, fun h => absurd h hshown⟩
    · rw [text_eq, sourceLine?_of_not_shown hshown, Option.map_none, Option.getD_none,
        String.append_empty]
      exact hhead.append hnotes
    · rw [List.length_append, List.length_map, rowCount, if_neg hshown]
      rfl

theorem forall_block (source : String) {ds : List Diagnostic} (h : ∀ d ∈ ds, d.OneLined) :
    ∃ blocks, List.Forall₂ (Block source) ds blocks := by
  induction ds with
  | nil => exact ⟨[], .nil⟩
  | cons d ds ih =>
    obtain ⟨hd, hds⟩ := List.forall_mem_cons.1 h
    obtain ⟨rows, hrows⟩ := hd.exists_block source
    obtain ⟨blocks, hblocks⟩ := ih hds
    exact ⟨rows :: blocks, .cons hrows hblocks⟩

theorem rows_listText {ds : List Diagnostic} {blocks : List (List String)}
    (h : List.Forall₂ (Block source) ds blocks) :
    Rows (listText source ds) (List.intercalate [""] blocks) :=
  .intercalate (List.forall₂_map_left_iff.2 (h.imp fun _ _ hb => hb.made))

theorem map_length_blocks {ds : List Diagnostic} {blocks : List (List String)}
    (h : List.Forall₂ (Block source) ds blocks) :
    blocks.map List.length = ds.map (rowCount source) := by
  induction h with
  | nil => rfl
  | cons hb _ ih => rw [List.map_cons, List.map_cons, hb.length, ih]

end

/-! ### Failure -/

/-- A difference, which there is only if it is not below zero. -/
def checkedSub (a b : Nat) : Option Nat := if b ≤ a then some (a - b) else none

/-- The line that a span starts on, if the source has it, found by a subtraction and a look at a
list of lines that can both fail. -/
def checkedLine (source : String) (s : Span) : Option (Option String) :=
  if 0 < s.startLine.toNat ∧ s.startLine.toNat ≤ (Source.lines source).length then do
    let i ← checkedSub s.startLine.toNat 1
    let line ← (Source.lines source)[i]?
    return some line
  else
    return none

/-- The text of a diagnostic, which there is only if its source line is found without failure. -/
def checkedText (source : String) (d : Diagnostic) : Option String :=
  (checkedLine source d.span).map d.textWith

theorem checkedLine_eq (source : String) (s : Span) :
    checkedLine source s = some (sourceLine? source s) := by
  have hzero : s.startLine = 0 ↔ s.startLine.toNat = 0 := UInt64.toNat_inj.symm
  rw [checkedLine, sourceLine?]
  -- the guard on the line is what keeps both the subtraction and the look-up from failing
  by_cases h : 0 < s.startLine.toNat ∧ s.startLine.toNat ≤ (Source.lines source).length
  · have hsub : checkedSub s.startLine.toNat 1 = some (s.startLine.toNat - 1) := if_pos h.1
    have hget := List.getElem?_eq_getElem (l := Source.lines source)
      (i := s.startLine.toNat - 1) (by omega)
    rw [if_pos h, if_neg (mt hzero.1 (by omega)), hsub, hget]
    show ((Source.lines source)[s.startLine.toNat - 1]?.bind fun line => some (some line)) = _
    rw [hget, Option.bind_some]
  · rw [if_neg h]
    by_cases hs : s.startLine = 0
    · rw [if_pos hs]
      rfl
    · rw [if_neg hs, List.getElem?_eq_none (by rw [hzero] at hs; omega)]
      rfl

theorem checkedText_eq (source : String) (d : Diagnostic) :
    checkedText source d = some (d.text source) := by
  rw [checkedText, checkedLine_eq]
  rfl

/-- **The rows of diagnostics.**  The text of a diagnostic never fails to be found.  If nothing in
it has a line feed, it is a block of two rows, three more if the source has its line, and one more
for each note, and the text of several is made up of their blocks with an empty row between any
two. -/
theorem text_rows (source : String) :
    (∀ d : Diagnostic, checkedText source d = some (d.text source)) ∧
      (∀ d : Diagnostic, d.OneLined → ∃ rows, d.Block source rows) ∧
        ∀ ds : List Diagnostic, ds ≠ [] → (∀ d ∈ ds, d.OneLined) →
          ∃ blocks, List.Forall₂ (Block source) ds blocks ∧
            Rows (listText source ds) (List.intercalate [""] blocks) ∧
              (List.intercalate [""] blocks).length =
                (ds.map (rowCount source)).sum + (ds.length - 1) := by
  refine ⟨checkedText_eq source, fun d hd => hd.exists_block source, fun ds hne hds => ?_⟩
  obtain ⟨blocks, hblocks⟩ := forall_block source hds
  refine ⟨blocks, hblocks, rows_listText hblocks, ?_⟩
  have hlength : ds.length = blocks.length := hblocks.length_eq
  have hne' : blocks ≠ [] := by
    rw [← List.length_pos_iff, ← hlength]
    exact List.length_pos_iff.2 hne
  rw [Rows.length_intercalate hne', map_length_blocks hblocks, hlength]

/-- A carriage return belongs to its line unless a line feed comes next, and no position is too
large. -/
theorem text_rows_return :
    let source := "a\r\nb\rc\r"
    let shown : Diagnostic :=
      { code := "E", severity := .error, span := { startLine := 2 }, notes := [{ message := "n" }] }
    let beyond : Diagnostic :=
      { code := "W", severity := .warning, span := { startLine := 18446744073709551615 } }
    (∀ d ∈ [shown, beyond], d.OneLined) ∧
      (∃ rows, Rows (shown.text source) rows ∧ rows.length = 6 ∧
        rows[3]? = some "  2 | b\rc\r") ∧
      ∃ rows, Rows (listText source [shown, beyond]) rows ∧ rows.length = 9 := by
  intro source shown beyond
  have hshown : shown.OneLined := ⟨by decide, by decide, by decide, by decide⟩
  have hbeyond : beyond.OneLined := ⟨by decide, by decide, by decide, by decide⟩
  have hall : ∀ d ∈ [shown, beyond], d.OneLined := by simp [hshown, hbeyond]
  obtain ⟨-, hone, hlist⟩ := text_rows source
  obtain ⟨rows, hmade, hlength, hrow⟩ := hone shown hshown
  obtain ⟨blocks, -, hjoined, hcount⟩ := hlist [shown, beyond] (by simp) hall
  obtain ⟨line, hline, hfourth⟩ := hrow (by decide +kernel)
  have hline' : some "b\rc\r".toList = some line := .trans (by decide +kernel) hline
  rw [← Option.some.inj hline'] at hfourth
  exact ⟨hall, ⟨rows, hmade, hlength.trans (by decide +kernel), hfourth.trans (by decide +kernel)⟩,
    _, hjoined, hcount.trans (by decide +kernel)⟩

end Diagnostic

end UnitCheck
