import UnitCheck.Proofs.Diagnostic.Rows

/-!
# The underline of a source line

Below its location the text of a diagnostic has an excerpt of the source, if the source has the line
that the diagnostic starts on: a row with a bar, the line behind its number, and a row with carets.
`Diagnostic.Excerpt` reads the last two rows off the text.

A span within one line always has a caret.  A span that ends on another line is underlined to the
end of the line it starts on, and if it starts behind that end there is no caret at all
(`Diagnostic.underlined_iff`).

The blanks and the carets may be more than a text has room for (`Diagnostic.Overlong`), and then
there is no text at all.

The margin of the source line takes six columns, or more if its number has more than three digits.
The margin of the carets takes five.  So the carets are never below the text they are meant for, but
to the left of it (`Diagnostic.caret_column`).
-/

set_option autoImplicit false

namespace UnitCheck

namespace Diagnostic

/-! ## The rows of the excerpt -/

/-- The text of a diagnostic shows this line of the source with this margin in front of it, and
below it this row. -/
structure Excerpt (source : String) (d : Diagnostic) (line margin underline : List Char) :
    Prop where
  sourceLine : (Source.split source.toList)[d.span.startLine.toNat - 1]? = some line
  rows : ∃ below, (d.text source).toList = d.head.toList ++ below ∧
    (below.splitOn '\n')[1]? = some (margin ++ line) ∧ (below.splitOn '\n')[2]? = some underline

/-- What is in front of the source line. -/
def lineMargin (s : Span) : List Char :=
  List.leftpad 3 ' ' (Nat.toDigits 10 s.startLine.toNat) ++ [' ', '|', ' ']

/-- The row below the source line. -/
def underlineRow (s : Span) (line : List Char) : List Char :=
  [' ', ' ', ' ', '|', ' '] ++ List.replicate (s.startCol.toNat - 1) ' ' ++
    List.replicate (underlineLength s (String.ofList line)) '^'

theorem Excerpt.unique {source : String} {d : Diagnostic}
    {line line' margin margin' underline underline' : List Char}
    (h : d.Excerpt source line margin underline) (h' : d.Excerpt source line' margin' underline') :
    line = line' ∧ margin = margin' ∧ underline = underline' := by
  obtain ⟨hline, below, htext, hrow, hunder⟩ := h
  obtain ⟨hline', below', htext', hrow', hunder'⟩ := h'
  obtain rfl : line = line' := Option.some.inj (hline.symm.trans hline')
  obtain rfl : below = below' := List.append_cancel_left (htext.symm.trans htext')
  exact ⟨rfl, List.append_cancel_right (Option.some.inj (hrow.symm.trans hrow')),
    Option.some.inj (hunder.symm.trans hunder')⟩

theorem toList_excerpt (s : Span) (line : List Char) :
    (excerpt s (String.ofList line)).toList = [' ', ' ', ' ', '|'] ++ '\n' ::
      (lineMargin s ++ line ++ '\n' :: (underlineRow s line ++ ['\n'])) := by
  simp [excerpt, lineMargin, underlineRow, lineNumber_eq, repeatChar]

/-- A diagnostic whose line the source has shows that line, however many rows there are above. -/
theorem exists_excerpt {source : String} {d : Diagnostic} (h : d.Shown source) :
    ∃ line, d.Excerpt source line (lineMargin d.span) (underlineRow d.span line) := by
  obtain ⟨line, hsplit, hline⟩ := sourceLine?_of_shown h
  have hmem : String.ofList line ∈ Source.lines source := by
    rw [Source.lines_eq]
    exact List.mem_map_of_mem (List.mem_of_getElem? hsplit)
  have hfeed : '\n' ∉ line := by simpa [OneRow] using oneRow_of_mem_lines hmem
  have hrow : '\n' ∉ lineMargin d.span ++ line := by
    have hdigits := oneRow_repr d.span.startLine.toNat
    simp only [OneRow, Nat.repr, String.toList_ofList] at hdigits
    simp [lineMargin, List.leftpad, hdigits, hfeed]
  have hunderline : '\n' ∉ underlineRow d.span line := by simp [underlineRow]
  let notes := (String.join (d.notes.map noteText)).toList
  refine ⟨line, hsplit, [' ', ' ', ' ', '|'] ++ '\n' ::
    (lineMargin d.span ++ line ++ '\n' :: (underlineRow d.span line ++ '\n' :: notes)), ?_, ?_⟩
  · have htext : d.text source = d.head ++ excerpt d.span (String.ofList line) ++
        String.join (d.notes.map noteText) := by
      rw [text, hline]
      rfl
    rw [htext, String.toList_append, String.toList_append, toList_excerpt]
    simp [notes]
  · rw [Source.splitOn_append_feed (by decide), Source.splitOn_append_feed hrow,
      Source.splitOn_append_feed hunderline]
    exact ⟨rfl, rfl⟩

/-! ## Carets -/

theorem caret_mem_underlineRow_iff (s : Span) (line : List Char) :
    '^' ∈ underlineRow s line ↔ 0 < underlineLength s (String.ofList line) := by
  simp [underlineRow, Nat.pos_iff_ne_zero]

theorem underlineLength_pos_iff (s : Span) (line : String) :
    0 < underlineLength s line ↔
      s.endLine = s.startLine ∨ s.startCol.toNat - 1 < line.utf8ByteSize := by
  rw [underlineLength]
  split
  · rename_i hsame
    exact ⟨fun _ => .inl hsame, fun _ => by omega⟩
  · rename_i hother
    rw [or_iff_right hother, Nat.sub_pos_iff_lt]

theorem idxOf_caret_underlineRow {s : Span} {line : List Char}
    (h : 0 < underlineLength s (String.ofList line)) :
    (underlineRow s line).idxOf '^' = 5 + (s.startCol.toNat - 1) := by
  have hfront : '^' ∉ [' ', ' ', ' ', '|', ' '] ++ List.replicate (s.startCol.toNat - 1) ' ' := by
    simp
  obtain ⟨n, hn⟩ := Nat.exists_eq_add_of_lt h
  rw [underlineRow, List.idxOf_append_of_notMem hfront, hn, List.replicate_succ,
    List.idxOf_cons_self, Nat.add_zero, List.length_append, List.length_replicate]
  rfl

theorem length_lineMargin (s : Span) :
    (lineMargin s).length = max 3 (Nat.toDigits 10 s.startLine.toNat).length + 3 := by
  simp only [lineMargin, List.leftpad, List.length_append, List.length_replicate, List.length_cons,
    List.length_nil]
  omega

/-! ## Underlines that are too long -/

/-- The source has the line that a diagnostic starts on, and there are more blanks or more carets to
go below it than a text has room for. -/
def Overlong (source : String) (d : Diagnostic) : Prop :=
  d.Shown source ∧ ∃ line, (Source.split source.toList)[d.span.startLine.toNat - 1]? = some line ∧
    (maxBytes < d.span.startCol.toNat - 1 ∨
      maxBytes < underlineLength d.span (String.ofList line))

theorem fits_iff (source : String) (d : Diagnostic) :
    d.fits source = true ↔ ¬d.Overlong source := by
  by_cases h : d.Shown source
  · obtain ⟨line, hsplit, hline⟩ := sourceLine?_of_shown h
    have hline? : ∀ line', (Source.split source.toList)[d.span.startLine.toNat - 1]? = some line' ↔
        line = line' := by simp [hsplit]
    simp [fits, hline, canUnderline, Overlong, h, hline?]
  · simp [fits, sourceLine?_of_not_shown h, Overlong, h]

/-- **When a line is underlined.**  There is a caret below the source line of a diagnostic if and
only if its span ends on that line or starts before the line's end. -/
theorem underlined_iff {source : String} {d : Diagnostic} (h : d.Shown source) :
    ∃ line margin underline, d.Excerpt source line margin underline ∧
      ('^' ∈ underline ↔ d.span.endLine = d.span.startLine ∨
        d.span.startCol.toNat - 1 < (String.ofList line).utf8ByteSize) := by
  obtain ⟨line, hexcerpt⟩ := exists_excerpt h
  refine ⟨line, _, _, hexcerpt, ?_⟩
  rw [caret_mem_underlineRow_iff, underlineLength_pos_iff]

/-- A span of no length at the end of its line has a caret. -/
theorem underlined_iff_empty_span :
    let source := "ab"
    let d : Diagnostic :=
      { code := "E", severity := .error, span := Span.inLine "" 1 3 0 }
    d.Shown source ∧ ∃ line margin underline, d.Excerpt source line margin underline ∧
      '^' ∈ underline := by
  intro source d
  have hshown : d.Shown source := by decide +kernel
  obtain ⟨line, margin, underline, hexcerpt, hcaret⟩ := underlined_iff hshown
  exact ⟨hshown, line, margin, underline, hexcerpt, hcaret.2 (.inl rfl)⟩

/-- A span that starts on an empty line and ends on the next one has no caret. -/
theorem not_underlined :
    let source := "\nab"
    let d : Diagnostic :=
      { code := "E", severity := .error, span := ⟨"", 0, 0, 1, 1, 2, 2⟩ }
    d.Shown source ∧
      ¬∃ line margin underline, d.Excerpt source line margin underline ∧ '^' ∈ underline := by
  intro source d
  refine ⟨by decide +kernel, ?_⟩
  rintro ⟨line, margin, underline, h, hcaret⟩
  have hexcerpt : d.Excerpt source [] "  1 | ".toList "   | ".toList :=
    ⟨by decide +kernel, "   |\n  1 | \n   | \n".toList, by decide +kernel, by decide +kernel,
      by decide +kernel⟩
  obtain ⟨-, -, rfl⟩ := h.unique hexcerpt
  exact absurd hcaret (by decide)

/-- **Where the carets are.**  The first caret of a span within one line is to the left of the
column it is meant for, by one and by the digits that the number of the line has above three. -/
theorem caret_column {source : String} {d : Diagnostic} (h : d.Shown source)
    (hline : d.span.endLine = d.span.startLine) :
    ∃ line margin underline, d.Excerpt source line margin underline ∧ '^' ∈ underline ∧
      underline.idxOf '^' + (1 + ((Nat.toDigits 10 d.span.startLine.toNat).length - 3)) =
        margin.length + (d.span.startCol.toNat - 1) := by
  obtain ⟨line, hexcerpt⟩ := exists_excerpt h
  have hpos := (underlineLength_pos_iff d.span (String.ofList line)).2 (.inl hline)
  refine ⟨line, _, _, hexcerpt, (caret_mem_underlineRow_iff _ _).2 hpos, ?_⟩
  rw [idxOf_caret_underlineRow hpos, length_lineMargin]
  omega

/-- The caret of the second column is one place to the left of the second character. -/
theorem caret_column_second :
    let source := "ab"
    let d : Diagnostic :=
      { code := "E", severity := .error, span := Span.inLine "" 1 2 1 }
    d.Shown source ∧ d.span.endLine = d.span.startLine ∧
      ∃ line margin underline, d.Excerpt source line margin underline ∧
        underline.idxOf '^' + 1 = margin.length + 1 := by
  intro source d
  have hshown : d.Shown source := by decide +kernel
  obtain ⟨line, margin, underline, hexcerpt, -, hcolumn⟩ := caret_column hshown rfl
  have hdigits : (Nat.toDigits 10 d.span.startLine.toNat).length = 1 := by decide
  rw [hdigits] at hcolumn
  exact ⟨hshown, rfl, line, margin, underline, hexcerpt, hcolumn⟩

/-- The caret of the first column is not below the first character. -/
theorem caret_not_below :
    let source := "foo(1)"
    let d : Diagnostic :=
      { code := "E", severity := .error, span := Span.inLine "" 1 1 3 }
    d.Shown source ∧ 1 ≤ d.span.startCol.toNat ∧ d.span.endLine = d.span.startLine ∧
      ¬∃ line margin underline, d.Excerpt source line margin underline ∧
        underline.idxOf '^' = margin.length + (d.span.startCol.toNat - 1) := by
  intro source d
  refine ⟨by decide +kernel, by decide, rfl, ?_⟩
  rintro ⟨line, margin, underline, h, hcolumn⟩
  have hexcerpt : d.Excerpt source "foo(1)".toList "  1 | ".toList "   | ^^^".toList :=
    ⟨by decide +kernel, "   |\n  1 | foo(1)\n   | ^^^\n".toList, by decide +kernel,
      by decide +kernel, by decide +kernel⟩
  obtain ⟨-, rfl, rfl⟩ := h.unique hexcerpt
  exact absurd hcolumn (by decide)

end Diagnostic

end UnitCheck
