import Mathlib.Data.List.Forall2
import Mathlib.Data.List.TakeWhile
import UnitCheck.Json.Printer
import UnitCheck.Json.Token

/-!
# The tokens of a printed value

`Json.tokens j` is the list of tokens that a value is written with.  This file shows that the
scanner finds exactly these in the text that `Json.chars` prints, except that a natural number of
more than 64 bits is not kept: `Json.reread j` is the value with these numbers replaced by what
their digits denote, and is `j` itself if there are none of them (`Plain.reread_eq`).

Most tokens end where they end, but a word or a number ends only where something else begins.
`Token.Settles s found` is what is known in both cases: if the text stops here, or if a delimiter
follows, then the tokens read so far are `found`.  The main statement is `scans_reread`, by
recursion on the value; its two halves for lists, `foldlM_itemChars` and `foldlM_memberChars`, end
behind a bracket, and so between two tokens.
-/

set_option autoImplicit false

namespace UnitCheck

namespace Json

/-! ## Values that documents are made of -/

/-- A value that reads back as it is printed: all of it denotes something, and every number in it
is natural and has 64 bits. -/
inductive Plain : Json → Prop
  | null : Plain .null
  | bool (b : Bool) : Plain (.bool b)
  | nat {n : Nat} (h : n < Number.wordBound) : Plain (.nat n)
  | str (s : String) : Plain (.str s)
  | arr {items : List Json} (h : ∀ j ∈ items, Plain j) : Plain (.arr items)
  | obj {members : List (String × Json)} (h : ∀ m ∈ members, Plain m.2) : Plain (.obj members)

theorem plain_arr_iff {items : List Json} : Plain (.arr items) ↔ ∀ j ∈ items, Plain j :=
  ⟨fun h => by cases h; assumption, .arr⟩

theorem plain_obj_iff {members : List (String × Json)} :
    Plain (.obj members) ↔ ∀ m ∈ members, Plain m.2 :=
  ⟨fun h => by cases h; assumption, .obj⟩

/-- What the decimal digits of a natural number denote: the number, if it has 64 bits. -/
def Number.ofNat (n : Nat) : Json :=
  if n < Number.wordBound then .nat n else Number.sized (Number.isHuge (Nat.toDigits 10 n) [] 0)

mutual

/-- What the text of a value denotes: the value again, but for natural numbers of more than 64
bits. -/
def reread : Json → Json
  | .nat n => Number.ofNat n
  | .arr items => .arr (rereadAll items)
  | .obj members => .obj (rereadMembers members)
  | .null => .null
  | .bool b => .bool b
  | .real => .real
  | .str s => .str s
  | .invalid => .invalid

def rereadAll : List Json → List Json
  | [] => []
  | j :: rest => j.reread :: rereadAll rest

def rereadMembers : List (String × Json) → List (String × Json)
  | [] => []
  | (k, j) :: rest => (k, j.reread) :: rereadMembers rest

end

theorem rereadAll_eq_map (items : List Json) : rereadAll items = items.map reread := by
  induction items with
  | nil => rfl
  | cons j rest ih => rw [rereadAll, ih, List.map_cons]

theorem rereadMembers_eq_map (members : List (String × Json)) :
    rereadMembers members = members.map fun m => (m.1, m.2.reread) := by
  induction members with
  | nil => rfl
  | cons m rest ih => rw [rereadMembers, ih, List.map_cons]

mutual

theorem depth_reread (j : Json) : j.reread.depth = j.depth := by
  cases j with
  | null | bool | real | str | invalid => rfl
  | nat n =>
    rw [reread, Number.ofNat, Number.sized]
    split
    · rfl
    · split <;> rfl
  | arr items => rw [reread, depth, depth, depths_rereadAll items]
  | obj members => rw [reread, depth, depth, memberDepths_rereadMembers members]

theorem depths_rereadAll (items : List Json) : depths (rereadAll items) = depths items := by
  cases items with
  | nil => rfl
  | cons j rest => rw [rereadAll, depths, depths, depth_reread j, depths_rereadAll rest]

theorem memberDepths_rereadMembers (members : List (String × Json)) :
    memberDepths (rereadMembers members) = memberDepths members := by
  cases members with
  | nil => rfl
  | cons m rest =>
    rw [rereadMembers, memberDepths, memberDepths, depth_reread m.2,
      memberDepths_rereadMembers rest]

end

theorem Plain.reread_eq {j : Json} (h : Plain j) : j.reread = j := by
  induction h with
  | null => rfl
  | bool b => rfl
  | nat h => exact if_pos h
  | str s => rfl
  | arr _ ih => rw [reread, rereadAll_eq_map, List.map_congr_left ih, List.map_id']
  | obj _ ih =>
    rw [reread, rereadMembers_eq_map, List.map_congr_left fun m hm => by rw [ih m hm],
      List.map_id']

mutual

/-- The tokens of a value. -/
def tokens : Json → List Token
  | .null => [.scalar .null]
  | .bool b => [.scalar (.bool b)]
  | .nat n => [.scalar (.nat n)]
  | .real => [.scalar .real]
  | .str s => [.text (some s)]
  | .arr items => .beginArray :: itemTokens items
  | .obj members => .beginObject :: memberTokens members
  | .invalid => [.scalar .invalid]

/-- The tokens of the elements of an array and of its closing bracket. -/
def itemTokens : List Json → List Token
  | [] => [.endArray]
  | [j] => j.tokens ++ [.endArray]
  | j :: rest => j.tokens ++ .comma :: itemTokens rest

/-- The tokens of the members of an object and of its closing brace. -/
def memberTokens : List (String × Json) → List Token
  | [] => [.endObject]
  | [(k, j)] => .text (some k) :: .colon :: (j.tokens ++ [.endObject])
  | (k, j) :: rest => .text (some k) :: .colon :: (j.tokens ++ .comma :: memberTokens rest)

end

/-! ## Strings -/

namespace Text

theorem isSurrogate_toNat (c : Char) :
    isHighSurrogate c.toNat = false ∧ isLowSurrogate c.toNat = false := by
  have h := c.valid
  simp only [isHighSurrogate, isLowSurrogate, Bool.and_eq_false_iff, decide_eq_false_iff_not]
  simp only [UInt32.isValidChar, Nat.isValidChar, Char.toNat] at h ⊢
  omega

/-- No character is a surrogate, so the code points of a text are its code units. -/
theorem ofUnits_map_toNat (cs : List Char) : ofUnits (cs.map Char.toNat) = some cs := by
  induction cs with
  | nil => rfl
  | cons c cs ih =>
    obtain ⟨hhigh, hlow⟩ := isSurrogate_toNat c
    cases cs with
    | nil => simp [ofUnits, hhigh, hlow]
    | cons d ds =>
      rw [List.map_cons] at ih
      rw [List.map_cons, List.map_cons, ofUnits, hhigh, hlow, ih]
      simp

theorem hexValue_hexDigit {n : Nat} (h : n < 16) : hexValue (hexDigit n) = some n := by
  have hall : ∀ m, m < 16 → hexValue (hexDigit m) = some m := by decide
  exact hall n h

end Text

namespace Token

theorem advance_string {found : List Token} {units : List Nat} {c : Char} (hq : c ≠ '"')
    (hb : c ≠ '\\') (hc : ¬ c < ' ') :
    advance ⟨found, .string units⟩ c = some ⟨found, .string (c.toNat :: units)⟩ := by
  simp [advance, hq, hb, hc]

/-- What `escape` writes for a character is read as that character. -/
theorem foldlM_escape (found : List Token) (units : List Nat) (c : Char) :
    (escape c).foldlM advance ⟨found, .string units⟩ =
      some ⟨found, .string (c.toNat :: units)⟩ := by
  rw [escape.eq_def]
  split
  · rfl
  · rfl
  · rfl
  · rfl
  · rfl
  · rfl
  · rfl
  · rename_i hq hb _ _ _ _ _
    split
    · rename_i hc
      have hlt : c.toNat < 32 := hc
      have hhigh := Text.hexValue_hexDigit (n := c.toNat / 16) (by omega)
      have hlow := Text.hexValue_hexDigit (n := c.toNat % 16) (by omega)
      have hval : 16 * (c.toNat / 16) + c.toNat % 16 = c.toNat := by omega
      have hzero : Text.hexValue '0' = some 0 := by decide
      simp [List.foldlM_cons, advance, hhigh, hlow, hzero, hval]
    · rename_i hc
      rw [List.foldlM_cons, advance_string hq hb hc]
      rfl

theorem foldlM_flatMap_escape (found : List Token) (units : List Nat) (cs : List Char) :
    (cs.flatMap escape).foldlM advance ⟨found, .string units⟩ =
      some ⟨found, .string ((cs.map Char.toNat).reverse ++ units)⟩ := by
  induction cs generalizing units with
  | nil => rfl
  | cons c cs ih =>
    rw [List.flatMap_cons, List.foldlM_append, foldlM_escape]
    simpa using ih (c.toNat :: units)

/-- A string literal is one token, the text that it quotes. -/
theorem foldlM_quote (found : List Token) (s : String) :
    (quote s).foldlM advance ⟨found, .between⟩ = some ⟨.text (some s) :: found, .between⟩ := by
  have hopen : advance ⟨found, .between⟩ '"' = some ⟨found, .string []⟩ := rfl
  have hunits : ofUnits (s.toList.map Char.toNat) = .text (some s) := by
    rw [ofUnits, Text.ofUnits_map_toNat, Option.map_some, String.ofList_toList]
  rw [quote, List.cons_append, List.foldlM_cons, hopen, Option.bind_eq_bind, Option.bind_some,
    List.foldlM_append, foldlM_flatMap_escape]
  simp [advance, hunits]

/-! ## Numbers and words -/

/-- The digits of a natural number do not begin with `0`, unless it is `0`. -/
theorem head?_toDigits {n : Nat} (h : (Nat.toDigits 10 n).head? = some '0') :
    Nat.toDigits 10 n = ['0'] := by
  induction n using Nat.strongRecOn with
  | ind n ih =>
    rw [Nat.toDigits_eq_if (by decide)] at h ⊢
    split at h
    · rename_i hn
      rw [if_pos hn]
      simpa using h
    · rename_i hn
      have hne : Nat.toDigits 10 (n / 10) ≠ [] := Nat.toDigits_ne_nil
      rw [List.head?_append, List.head?_eq_some_head hne, Option.some_or,
        ← List.head?_eq_some_head hne] at h
      have hzero := congrArg (fun ds => Nat.ofDigitChars 10 ds 0) (ih (n / 10) (by omega) h)
      simp only [Nat.ofDigitChars_ten_toDigits] at hzero
      have hten : n / 10 = 0 := hzero
      omega

theorem all_isDigit_toDigits (n : Nat) : ∀ c ∈ Nat.toDigits 10 n, c.isDigit = true :=
  fun _ hc => Nat.isDigit_of_mem_toDigits (by decide) (by decide) hc

/-- The decimal digits of a number are one literal. -/
theorem ofNumber_toDigits (n : Nat) :
    ofNumber (Nat.toDigits 10 n) = some (.scalar (Number.ofNat n)) := by
  have hall := all_isDigit_toDigits n
  have htake : (Nat.toDigits 10 n).takeWhile Char.isDigit = Nat.toDigits 10 n :=
    List.takeWhile_eq_self_iff.2 hall
  have hdrop : (Nat.toDigits 10 n).dropWhile Char.isDigit = [] :=
    List.dropWhile_eq_nil_iff.2 hall
  have hsign : Number.ofLiteral (Nat.toDigits 10 n) = Number.ofUnsigned (Nat.toDigits 10 n) := by
    rw [Number.ofLiteral.eq_def]
    split
    · rename_i cs heq
      have := hall '-' (by rw [heq]; simp)
      exact absurd this (by decide)
    · rfl
  have hform : ¬ (Nat.toDigits 10 n = [] ∨
      (Nat.toDigits 10 n).head? = some '0' ∧ Nat.toDigits 10 n ≠ ['0']) := by
    rintro (hnil | ⟨hhead, hne⟩)
    · exact Nat.toDigits_ne_nil hnil
    · exact hne (head?_toDigits hhead)
  rw [ofNumber, hsign, Number.ofUnsigned, htake, hdrop]
  simp only [if_neg hform, Nat.ofDigitChars_ten_toDigits, Option.map_some, Number.ofNat]

theorem tokens_ofNat (n : Nat) : (Number.ofNat n).tokens = [.scalar (Number.ofNat n)] := by
  rw [Number.ofNat]
  split
  · rfl
  · rw [Number.sized]
    split <;> rfl

theorem foldlM_number (found : List Token) (read : List Char) {cs : List Char}
    (h : ∀ c ∈ cs, isNumberChar c = true) :
    cs.foldlM advance ⟨found, .number read⟩ = some ⟨found, .number (cs.reverse ++ read)⟩ := by
  induction cs generalizing read with
  | nil => rfl
  | cons c cs ih =>
    have hc : advance ⟨found, .number read⟩ c = some ⟨found, .number (c :: read)⟩ := by
      simp [advance, h c (by simp)]
    rw [List.foldlM_cons, hc]
    simpa using ih (c :: read) fun d hd => h d (by simp [hd])

theorem foldlM_toDigits (found : List Token) (n : Nat) :
    (Nat.toDigits 10 n).foldlM advance ⟨found, .between⟩ =
      some ⟨found, .number (Nat.toDigits 10 n).reverse⟩ := by
  have hall := all_isDigit_toDigits n
  cases hds : Nat.toDigits 10 n with
  | nil => exact absurd hds Nat.toDigits_ne_nil
  | cons d ds =>
    rw [hds] at hall
    have hd : d.isDigit = true := hall d (by simp)
    have hblank : isBlank d = false := by
      simp only [Char.isDigit, Bool.and_eq_true, decide_eq_true_eq] at hd
      simp only [isBlank, Bool.or_eq_false_iff, beq_eq_false_iff_ne]
      refine ⟨⟨⟨?_, ?_⟩, ?_⟩, ?_⟩ <;> rintro rfl <;> exact absurd hd (by decide)
    have hstart : advance ⟨found, .between⟩ d = some ⟨found, .number [d]⟩ := by
      simp [advance, start, hblank, hd]
    rw [List.foldlM_cons, hstart, Option.bind_eq_bind, Option.bind_some, foldlM_number]
    · simp
    · intro c hc
      simp [isNumberChar, hall c (by simp [hc])]

/-! ## Where a token ends -/

/-- The characters that can follow a value inside an array or an object. -/
def delimiters : List Char := [',', ']', '\x7d']

theorem eq_of_mem_delimiters {c : Char} (hc : c ∈ delimiters) :
    c = ',' ∨ c = ']' ∨ c = '\x7d' := by
  simpa [delimiters] using hc

/-- Whether the text stops here or a delimiter follows, the tokens read so far are `found`. -/
structure Settles (s : Scanner) (found : List Token) : Prop where
  finish_eq : finish s = some found
  advance_eq : ∀ c ∈ delimiters, advance s c = start found c

theorem settles_between (found : List Token) : Settles ⟨found, .between⟩ found :=
  ⟨rfl, fun _ _ => rfl⟩

theorem settles_word {found : List Token} {letters : List Char} {t : Token}
    (h : ofWord letters.reverse = some t) : Settles ⟨found, .word letters⟩ (t :: found) := by
  refine ⟨by simp [finish, h], fun c hc => ?_⟩
  have hlower : c.isLower = false := by
    rcases eq_of_mem_delimiters hc with rfl | rfl | rfl <;> decide
  simp [advance, hlower, h]

theorem settles_number {found : List Token} {chars : List Char} {t : Token}
    (h : ofNumber chars.reverse = some t) : Settles ⟨found, .number chars⟩ (t :: found) := by
  refine ⟨by simp [finish, h], fun c hc => ?_⟩
  have hnumber : isNumberChar c = false := by
    rcases eq_of_mem_delimiters hc with rfl | rfl | rfl <;> decide
  simp [advance, hnumber, h]

/-! ## Values -/

/-- Wherever it stands, the text of the first value is scanned into the tokens of the second. -/
def Scans (j k : Json) : Prop :=
  ∀ found, ∃ s, j.chars.foldlM advance ⟨found, .between⟩ = some s ∧
    Settles s (k.tokens.reverse ++ found)

/-- A delimiter behind a value finishes the value and is a token itself. -/
theorem Scans.foldlM_append {j k : Json} (h : Scans j k) {c : Char} {t : Token}
    (hc : c ∈ delimiters) (ht : ∀ found, start found c = some ⟨t :: found, .between⟩)
    (found : List Token) (rest : List Char) :
    (j.chars ++ c :: rest).foldlM advance ⟨found, .between⟩ =
      rest.foldlM advance ⟨t :: (k.tokens.reverse ++ found), .between⟩ := by
  obtain ⟨s, hs, hset⟩ := h found
  rw [List.foldlM_append, hs, Option.bind_eq_bind, Option.bind_some, List.foldlM_cons,
    hset.advance_eq c hc, ht, Option.bind_eq_bind, Option.bind_some]

theorem foldlM_itemChars {items values : List Json} (h : List.Forall₂ Scans items values)
    (found : List Token) :
    (itemChars items).foldlM advance ⟨found, .between⟩ =
      some ⟨(itemTokens values).reverse ++ found, .between⟩ := by
  induction h generalizing found with
  | nil => rfl
  | cons hj hrest ih =>
    cases hrest with
    | nil =>
      rw [itemChars, itemTokens, hj.foldlM_append (t := .endArray) (by decide) fun _ => rfl]
      simp
    | cons _ _ =>
      rw [itemChars, itemTokens, hj.foldlM_append (t := .comma) (by decide) fun _ => rfl, ih]
      · simp
      · simp
      · simp

theorem foldlM_key (found : List Token) (k : String) (rest : List Char) :
    (quote k ++ ':' :: rest).foldlM advance ⟨found, .between⟩ =
      rest.foldlM advance ⟨.colon :: .text (some k) :: found, .between⟩ := by
  rw [List.foldlM_append, foldlM_quote]
  rfl

theorem foldlM_memberChars {members values : List (String × Json)}
    (h : List.Forall₂ (fun m n => m.1 = n.1 ∧ Scans m.2 n.2) members values)
    (found : List Token) :
    (memberChars members).foldlM advance ⟨found, .between⟩ =
      some ⟨(memberTokens values).reverse ++ found, .between⟩ := by
  induction h generalizing found with
  | nil => rfl
  | @cons m n _ _ hm hrest ih =>
    obtain ⟨k, j⟩ := m
    obtain ⟨_, i⟩ := n
    obtain ⟨rfl, hj⟩ := hm
    cases hrest with
    | nil =>
      rw [memberChars, memberTokens, foldlM_key,
        hj.foldlM_append (t := .endObject) (by decide) fun _ => rfl]
      simp
    | cons _ _ =>
      rw [memberChars, memberTokens, foldlM_key,
        hj.foldlM_append (t := .comma) (by decide) fun _ => rfl, ih]
      · simp
      · simp
      · simp

mutual

/-- **The scanner finds the tokens of a value** in its text, whatever it has found before. -/
theorem scans_reread (j : Json) : Scans j j.reread := by
  cases j with
  | null => exact fun found => ⟨_, rfl, settles_word rfl⟩
  | bool b => cases b <;> exact fun found => ⟨_, rfl, settles_word rfl⟩
  | nat n =>
    intro found
    refine ⟨_, foldlM_toDigits found n, ?_⟩
    rw [reread, tokens_ofNat]
    refine settles_number ?_
    rw [List.reverse_reverse, ofNumber_toDigits]
  | real => exact fun found => ⟨_, rfl, settles_number rfl⟩
  | invalid => exact fun found => ⟨_, rfl, settles_number rfl⟩
  | str s => exact fun found => ⟨_, foldlM_quote found s, settles_between _⟩
  | arr items =>
    intro found
    have hopen : advance ⟨found, .between⟩ '[' = some ⟨.beginArray :: found, .between⟩ := rfl
    refine ⟨_, ?_, settles_between _⟩
    rw [chars, reread, tokens, List.foldlM_cons, hopen]
    simpa using foldlM_itemChars (scans_rereadAll items) (.beginArray :: found)
  | obj members =>
    intro found
    have hopen : advance ⟨found, .between⟩ '\x7b' = some ⟨.beginObject :: found, .between⟩ := rfl
    refine ⟨_, ?_, settles_between _⟩
    rw [chars, reread, tokens, List.foldlM_cons, hopen]
    simpa using foldlM_memberChars (scans_rereadMembers members) (.beginObject :: found)

theorem scans_rereadAll (items : List Json) : List.Forall₂ Scans items (rereadAll items) := by
  cases items with
  | nil => exact .nil
  | cons j rest => exact .cons (scans_reread j) (scans_rereadAll rest)

theorem scans_rereadMembers (members : List (String × Json)) :
    List.Forall₂ (fun m n => m.1 = n.1 ∧ Scans m.2 n.2) members (rereadMembers members) := by
  cases members with
  | nil => exact .nil
  | cons m rest =>
    obtain ⟨k, j⟩ := m
    exact .cons ⟨rfl, scans_reread j⟩ (scans_rereadMembers rest)

end

theorem scan_chars (j : Json) : scan j.chars = some j.reread.tokens := by
  obtain ⟨s, hs, hset⟩ := scans_reread j []
  rw [scan, hs, Option.bind_some, hset.finish_eq]
  simp

end Token

end Json

end UnitCheck
