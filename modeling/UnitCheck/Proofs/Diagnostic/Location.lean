import UnitCheck.Span

/-!
# Locations and their headers

A header puts a file, a line and a column one after the other with colons in between.  There may be
colons in the name of the file, also with digits behind them, so a header does not tell from the
left where its file ends.  It does from the right: a number has no colon in it, so the last colon is
the one before the column, and the one before it is the one before the line (`Span.header_eq_iff`).
-/

set_option autoImplicit false

namespace UnitCheck

namespace Span

/-- What is behind the last colon of a text, and what is in front of it, can be told from the
text. -/
theorem append_colon_inj {front front' back back' : List Char} (hback : ':' ∉ back)
    (hback' : ':' ∉ back') (h : front ++ ':' :: back = front' ++ ':' :: back') :
    front = front' ∧ back = back' := by
  -- if one of the two fronts went further than the other, its colon would be in the other's back
  rcases List.append_eq_append_iff.1 h with ⟨more, hfront, hmore⟩ | ⟨more, hfront, hmore⟩
  · cases more with
    | nil => exact ⟨by simpa using hfront.symm, by simpa using hmore⟩
    | cons c more =>
      obtain ⟨-, rfl⟩ := List.cons.inj hmore
      exact absurd (by simp) hback
  · cases more with
    | nil => exact ⟨by simpa using hfront, by simpa using hmore.symm⟩
    | cons c more =>
      obtain ⟨-, rfl⟩ := List.cons.inj hmore
      exact absurd (by simp) hback'

theorem colon_notMem_toDigits (n : Nat) : ':' ∉ Nat.toDigits 10 n := by
  intro h
  have hdigit := Nat.isDigit_of_mem_toDigits (by decide) (by decide) h
  exact absurd hdigit (by decide)

theorem eq_of_toDigits_eq {m n : Nat} (h : Nat.toDigits 10 m = Nat.toDigits 10 n) : m = n := by
  rw [← Nat.ofDigitChars_ten_toDigits (n := m), h, Nat.ofDigitChars_ten_toDigits]

theorem toList_header (s : Span) :
    s.header.toList = (s.file.toList ++ ':' :: Nat.toDigits 10 s.startLine.toNat) ++
      ':' :: Nat.toDigits 10 s.startCol.toNat := by
  simp [header, Nat.repr]

/-- **A header tells its location.**  Two spans have the same header if and only if they start in
the same file, line and column, whatever the names of their files are. -/
theorem header_eq_iff (s t : Span) :
    s.header = t.header ↔
      s.file = t.file ∧ s.startLine = t.startLine ∧ s.startCol = t.startCol := by
  constructor
  · intro h
    have hchars := congrArg String.toList h
    rw [toList_header, toList_header] at hchars
    obtain ⟨hfront, hcol⟩ :=
      append_colon_inj (colon_notMem_toDigits _) (colon_notMem_toDigits _) hchars
    obtain ⟨hfile, hline⟩ :=
      append_colon_inj (colon_notMem_toDigits _) (colon_notMem_toDigits _) hfront
    exact ⟨String.toList_injective hfile, UInt64.toNat_inj.1 (eq_of_toDigits_eq hline),
      UInt64.toNat_inj.1 (eq_of_toDigits_eq hcol)⟩
  · rintro ⟨hfile, hline, hcol⟩
    rw [header, header, hfile, hline, hcol]

end Span

end UnitCheck
