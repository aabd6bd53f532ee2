import UnitCheck.Proofs.Json.Scan

/-!
# How deep a text nests

`Json.nesting` counts on the text itself: the largest number of brackets and braces that are open
at once, those inside string literals left out.  For the text of a value this is the depth of the
value (`nesting_render`), so that a limit on the one is a limit on the other.
-/

set_option autoImplicit false

namespace UnitCheck

namespace Json

/-! ## Depth -/

theorem depths_cons (j : Json) (rest : List Json) :
    depths (j :: rest) = max j.depth (depths rest) := by
  rw [depths]

theorem memberDepths_cons (k : String) (j : Json) (rest : List (String × Json)) :
    memberDepths ((k, j) :: rest) = max j.depth (memberDepths rest) := by
  rw [memberDepths]

theorem depths_le_iff {items : List Json} {n : Nat} :
    depths items ≤ n ↔ ∀ j ∈ items, j.depth ≤ n := by
  induction items with
  | nil => simp [depths]
  | cons j rest ih => rw [depths_cons, Nat.max_le, ih, List.forall_mem_cons]

theorem depth_lt_arr {items : List Json} {j : Json} (h : j ∈ items) :
    j.depth < (Json.arr items).depth := by
  rw [depth, Nat.lt_succ_iff]
  exact depths_le_iff.1 (Nat.le_refl _) j h

theorem memberDepths_le_iff {members : List (String × Json)} {n : Nat} :
    memberDepths members ≤ n ↔ ∀ m ∈ members, m.2.depth ≤ n := by
  induction members with
  | nil => simp [memberDepths]
  | cons m rest ih => rw [memberDepths_cons, Nat.max_le, ih, List.forall_mem_cons]

/-! ## Counting brackets -/

/-- A reading position in a text: whether it is inside a string literal, whether the character
before it is a backslash that escapes the next one, how many brackets are open, and the most that
were. -/
structure Brackets where
  quoted : Bool := false
  escaped : Bool := false
  opened : Nat := 0
  deepest : Nat := 0

namespace Brackets

/-- Read one character. -/
def advance (b : Brackets) (c : Char) : Brackets :=
  if b.escaped then { b with escaped := false }
  else if b.quoted then
    if c = '\\' then { b with escaped := true }
    else if c = '"' then { b with quoted := false }
    else b
  else if c = '"' then { b with quoted := true }
  else if c = '[' ∨ c = '\x7b' then
    { b with opened := b.opened + 1, deepest := max b.deepest (b.opened + 1) }
  else if c = ']' ∨ c = '\x7d' then { b with opened := b.opened - 1 }
  else b

end Brackets

/-- How many arrays and objects of a text are open at once, at most. -/
def nesting (text : String) : Nat := (text.toList.foldl Brackets.advance {}).deepest

namespace Brackets

/-! ## Scalars -/

theorem foldl_escape (opened deepest : Nat) (c : Char) :
    (escape c).foldl advance ⟨true, false, opened, deepest⟩ = ⟨true, false, opened, deepest⟩ := by
  rw [escape.eq_def]
  split
  · rfl
  · rfl
  · rfl
  · rfl
  · rfl
  · rfl
  · rfl
  · rename_i hq hb _ _ _ _ _
    split
    · rename_i hc
      have hlt : c.toNat < 32 := hc
      have hdigit : ∀ n, n < 16 → hexDigit n ≠ '\\' ∧ hexDigit n ≠ '"' := by decide
      have hhigh := hdigit (c.toNat / 16) (by omega)
      have hlow := hdigit (c.toNat % 16) (by omega)
      simp [advance, hhigh, hlow]
    · have hq' : c ≠ '"' := hq
      have hb' : c ≠ '\\' := hb
      simp [advance, hq', hb']

/-- Nothing between quotes counts. -/
theorem foldl_quote (opened deepest : Nat) (s : String) :
    (quote s).foldl advance ⟨false, false, opened, deepest⟩ = ⟨false, false, opened, deepest⟩ := by
  have hbody : ∀ cs : List Char, (cs.flatMap escape).foldl advance ⟨true, false, opened, deepest⟩ =
      ⟨true, false, opened, deepest⟩ := by
    intro cs
    induction cs with
    | nil => rfl
    | cons c cs ih => rw [List.flatMap_cons, List.foldl_append, foldl_escape, ih]
  rw [quote, List.cons_append, List.foldl_cons, List.foldl_append]
  show List.foldl advance (List.foldl advance ⟨true, false, opened, deepest⟩ _) _ = _
  rw [hbody]
  rfl

theorem foldl_digits (opened deepest : Nat) {ds : List Char} (h : ∀ d ∈ ds, d.isDigit = true) :
    ds.foldl advance ⟨false, false, opened, deepest⟩ = ⟨false, false, opened, deepest⟩ := by
  induction ds with
  | nil => rfl
  | cons d ds ih =>
    have hd : d.isDigit = true := h d (by simp)
    have hne : d ≠ '"' ∧ d ≠ '[' ∧ d ≠ '\x7b' ∧ d ≠ ']' ∧ d ≠ '\x7d' := by
      refine ⟨?_, ?_, ?_, ?_, ?_⟩ <;> rintro rfl <;> exact absurd hd (by decide)
    rw [List.foldl_cons]
    simpa [advance, hne] using ih fun c hc => h c (by simp [hc])

/-! ## Values -/

/-- Reading the value opens as many brackets on top of the open ones as it is deep, and closes them
again. -/
def Counts (j : Json) : Prop :=
  ∀ {opened deepest : Nat}, opened ≤ deepest →
    j.chars.foldl advance ⟨false, false, opened, deepest⟩ =
      ⟨false, false, opened, max deepest (opened + j.depth)⟩

theorem foldl_itemChars {items : List Json} (h : ∀ j ∈ items, Counts j) {opened deepest : Nat}
    (hle : opened + 1 ≤ deepest) :
    (itemChars items).foldl advance ⟨false, false, opened + 1, deepest⟩ =
      ⟨false, false, opened, max deepest (opened + 1 + depths items)⟩ := by
  induction items generalizing deepest with
  | nil => simp [itemChars, advance, depths, Nat.max_eq_left hle]
  | cons j rest ih =>
    have hj := h j (by simp) hle
    cases rest with
    | nil =>
      rw [itemChars, List.foldl_append, hj]
      simp [advance, depths]
    | cons k rest =>
      have hle' : opened + 1 ≤ max deepest (opened + 1 + j.depth) := by omega
      have hrest := ih (fun i hi => h i (by simp [hi])) hle'
      rw [itemChars, List.foldl_append, hj, List.foldl_cons]
      · show List.foldl advance ⟨false, false, opened + 1, max deepest (opened + 1 + j.depth)⟩ _ = _
        rw [hrest, depths_cons j]
        congr 1
        omega
      · simp

theorem foldl_memberChars {members : List (String × Json)} (h : ∀ m ∈ members, Counts m.2)
    {opened deepest : Nat} (hle : opened + 1 ≤ deepest) :
    (memberChars members).foldl advance ⟨false, false, opened + 1, deepest⟩ =
      ⟨false, false, opened, max deepest (opened + 1 + memberDepths members)⟩ := by
  induction members generalizing deepest with
  | nil => simp [memberChars, advance, memberDepths, Nat.max_eq_left hle]
  | cons m rest ih =>
    obtain ⟨k, j⟩ := m
    have hj := h (k, j) (by simp) hle
    have hcolon : advance ⟨false, false, opened + 1, deepest⟩ ':' =
        ⟨false, false, opened + 1, deepest⟩ := rfl
    cases rest with
    | nil =>
      rw [memberChars, List.foldl_append, foldl_quote, List.foldl_cons, hcolon, List.foldl_append,
        hj]
      simp [advance, memberDepths]
    | cons n rest =>
      have hle' : opened + 1 ≤ max deepest (opened + 1 + j.depth) := by omega
      have hrest := ih (fun i hi => h i (by simp [hi])) hle'
      rw [memberChars, List.foldl_append, foldl_quote, List.foldl_cons, hcolon, List.foldl_append,
        hj, List.foldl_cons]
      · show List.foldl advance ⟨false, false, opened + 1, max deepest (opened + 1 + j.depth)⟩ _ = _
        rw [hrest, memberDepths_cons k j]
        congr 1
        omega
      · simp

theorem counts_of_plain {j : Json} (h : Plain j) : Counts j := by
  induction h with
  | null => intro opened deepest hle; rw [depth, Nat.add_zero, Nat.max_eq_left hle]; rfl
  | bool b =>
    intro opened deepest hle
    rw [depth, Nat.add_zero, Nat.max_eq_left hle]
    cases b <;> rfl
  | @nat n _ =>
    intro opened deepest hle
    rw [depth, Nat.add_zero, Nat.max_eq_left hle, chars,
      foldl_digits _ _ (Token.all_isDigit_toDigits n)]
  | str s =>
    intro opened deepest hle
    rw [depth, Nat.add_zero, Nat.max_eq_left hle, chars, foldl_quote]
  | @arr items _ ih =>
    intro opened deepest hle
    have hopen : advance ⟨false, false, opened, deepest⟩ '[' =
        ⟨false, false, opened + 1, max deepest (opened + 1)⟩ := rfl
    rw [chars, depth, List.foldl_cons, hopen, foldl_itemChars ih (by omega)]
    congr 1
    omega
  | @obj members _ ih =>
    intro opened deepest hle
    have hopen : advance ⟨false, false, opened, deepest⟩ '\x7b' =
        ⟨false, false, opened + 1, max deepest (opened + 1)⟩ := rfl
    rw [chars, depth, List.foldl_cons, hopen, foldl_memberChars ih (by omega)]
    congr 1
    omega

end Brackets

/-- **A text nests as deep as the value that it is printed for.** -/
theorem nesting_render {j : Json} (h : Plain j) : nesting j.render = j.depth := by
  have hcounts := Brackets.counts_of_plain h (Nat.le_refl 0)
  rw [nesting, render, String.toList_ofList, hcounts]
  simp

end Json

end UnitCheck
