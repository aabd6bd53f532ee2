import UnitCheck.Json.Printer
import UnitCheck.Proofs.Json.Scan

/-!
# The shape of a printed text

What `Json.render` prints is a single line without control characters, whatever texts are in the
value, because every such character of a text is escaped (`oneLine_render`).  The text of an array
is made of the texts of its elements, joined by commas (`render_arr`).
-/

set_option autoImplicit false

namespace UnitCheck

namespace Json

/-! ## One line -/

/-- No character of a text is below `U+0020`; so there is no line feed in it either. -/
def OneLine (text : String) : Prop := ∀ c ∈ text.toList, 0x20 ≤ c.toNat

/-- The same for characters, in a form that computes. -/
def printable (cs : List Char) : Bool := cs.all fun c => decide (0x20 ≤ c.toNat)

theorem printable_append (cs ds : List Char) :
    printable (cs ++ ds) = (printable cs && printable ds) :=
  List.all_append

theorem printable_cons (c : Char) (cs : List Char) :
    printable (c :: cs) = (decide (0x20 ≤ c.toNat) && printable cs) :=
  rfl

theorem printable_escape (c : Char) : printable (escape c) = true := by
  rw [escape.eq_def]
  split
  · rfl
  · rfl
  · rfl
  · rfl
  · rfl
  · rfl
  · rfl
  · split
    · rename_i hc
      have hlt : c.toNat < 32 := hc
      have hdigit : ∀ n, n < 16 → 0x20 ≤ (hexDigit n).toNat := by decide
      have hhigh := hdigit (c.toNat / 16) (by omega)
      have hlow := hdigit (c.toNat % 16) (by omega)
      simp [printable, hhigh, hlow]
    · rename_i hc
      have hle : 32 ≤ c.toNat := Nat.le_of_not_lt hc
      simp [printable, hle]

theorem printable_quote (s : String) : printable (quote s) = true := by
  have hbody : printable (s.toList.flatMap escape) = true := by
    rw [printable, List.all_flatMap, List.all_eq_true]
    exact fun c _ => printable_escape c
  rw [quote, List.cons_append, printable_cons, printable_append, hbody]
  rfl

theorem printable_toDigits (n : Nat) : printable (Nat.toDigits 10 n) = true := by
  rw [printable, List.all_eq_true]
  intro c hc
  have hdigit := Token.all_isDigit_toDigits n c hc
  simp only [Char.isDigit, Bool.and_eq_true, decide_eq_true_eq] at hdigit
  have hle : 48 ≤ c.toNat := hdigit.1
  exact decide_eq_true (by omega)

mutual

theorem printable_chars (j : Json) : printable j.chars = true := by
  cases j with
  | null => rfl
  | bool b => cases b <;> rfl
  | nat n => exact printable_toDigits n
  | real => rfl
  | str s => exact printable_quote s
  | arr items => rw [chars, printable_cons, printable_itemChars items]; rfl
  | obj members => rw [chars, printable_cons, printable_memberChars members]; rfl
  | invalid => rfl

theorem printable_itemChars (items : List Json) : printable (itemChars items) = true := by
  cases items with
  | nil => rfl
  | cons j rest =>
    have hj := printable_chars j
    have hrest := printable_itemChars rest
    cases rest with
    | nil => rw [itemChars, printable_append, hj]; rfl
    | cons k rest =>
      rw [itemChars, printable_append, printable_cons, hj, hrest]
      · rfl
      · simp

theorem printable_memberChars (members : List (String × Json)) :
    printable (memberChars members) = true := by
  cases members with
  | nil => rfl
  | cons m rest =>
    obtain ⟨k, j⟩ := m
    have hj := printable_chars j
    have hrest := printable_memberChars rest
    cases rest with
    | nil =>
      rw [memberChars, printable_append, printable_cons, printable_append, printable_quote, hj]
      rfl
    | cons n rest =>
      rw [memberChars, printable_append, printable_cons, printable_append, printable_cons,
        printable_quote, hj, hrest]
      · rfl
      · simp

end

/-- **The text of a value is one line.** -/
theorem oneLine_render (j : Json) : OneLine j.render := by
  intro c hc
  rw [render, String.toList_ofList] at hc
  exact of_decide_eq_true (List.all_eq_true.1 (printable_chars j) c hc)

/-! ## Arrays -/

theorem itemChars_eq (items : List Json) :
    itemChars items = [','].intercalate (items.map chars) ++ [']'] := by
  induction items with
  | nil => rfl
  | cons j rest ih =>
    cases rest with
    | nil => simp [itemChars]
    | cons k rest =>
      rw [itemChars, ih]
      · simp
      · simp

/-- The text of an array is the texts of its elements between brackets, with commas in between. -/
theorem render_arr (items : List Json) :
    (Json.arr items).render = "[" ++ ",".intercalate (items.map render) ++ "]" := by
  apply String.toList_inj.1
  simp [render, chars, itemChars_eq, String.toList_intercalate, Function.comp_def]

end Json

end UnitCheck
