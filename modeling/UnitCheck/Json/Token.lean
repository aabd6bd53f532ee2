import UnitCheck.Json.Number

/-!
# JSON tokens

`Token.scan` cuts a text into tokens.  It reads one character at a time and keeps what it is in the
middle of (`Scan`), so it is a fold over the characters and needs no measure to end.

A string literal is first a list of code units: a raw character is its code point, an escape
`\uXXXX` is its four digits.  `Text.ofUnits` then pairs the surrogates, and a string where one is
left over denotes no text.
-/

set_option autoImplicit false

namespace UnitCheck

namespace Json

/-! ## Strings -/

namespace Text

/-- Whether a code unit is the first half of a pair. -/
def isHighSurrogate (u : Nat) : Bool := 0xD800 ≤ u && u < 0xDC00

/-- Whether a code unit is the second half of a pair. -/
def isLowSurrogate (u : Nat) : Bool := 0xDC00 ≤ u && u < 0xE000

/-- The code point that a high and a low surrogate stand for together. -/
def pairValue (high low : Nat) : Nat := 0x10000 + (high - 0xD800) * 0x400 + (low - 0xDC00)

/-- The characters of a list of code units, `none` if a surrogate is not one of a pair. -/
def ofUnits : List Nat → Option (List Char)
  | [] => some []
  | high :: low :: rest =>
    if isHighSurrogate high then
      if isLowSurrogate low then (ofUnits rest).map (Char.ofNat (pairValue high low) :: ·) else none
    else if isLowSurrogate high then none
    else (ofUnits (low :: rest)).map (Char.ofNat high :: ·)
  | [u] => if isHighSurrogate u || isLowSurrogate u then none else some [Char.ofNat u]

/-- The value of a hexadecimal digit of either case. -/
def hexValue (c : Char) : Option Nat :=
  if c.isDigit then some (c.toNat - '0'.toNat)
  else if 'a' ≤ c ∧ c ≤ 'f' then some (c.toNat - 'a'.toNat + 10)
  else if 'A' ≤ c ∧ c ≤ 'F' then some (c.toNat - 'A'.toNat + 10)
  else none

/-- The character that a one-letter escape stands for. -/
def escaped (c : Char) : Option Char :=
  match c with
  | '"' => some '"'
  | '\\' => some '\\'
  | '/' => some '/'
  | 'b' => some '\x08'
  | 'f' => some '\x0c'
  | 'n' => some '\n'
  | 'r' => some '\r'
  | 't' => some '\t'
  | _ => none

end Text

/-! ## Tokens -/

/-- The pieces of a JSON text.  A string that denotes no text is `text none`. -/
inductive Token where
  | beginArray
  | endArray
  | beginObject
  | endObject
  | comma
  | colon
  | text (s : Option String)
  | scalar (j : Json)

namespace Token

/-- The value that a word stands for. -/
def ofWord (letters : List Char) : Option Token :=
  if letters = ['n', 'u', 'l', 'l'] then some (.scalar .null)
  else if letters = ['t', 'r', 'u', 'e'] then some (.scalar (.bool true))
  else if letters = ['f', 'a', 'l', 's', 'e'] then some (.scalar (.bool false))
  else none

/-- What the scanner is in the middle of.  Characters and units read so far are in reverse. -/
inductive Scan where
  | between
  | word (letters : List Char)
  | number (chars : List Char)
  | string (units : List Nat)
  | escape (units : List Nat)
  | hex (units : List Nat) (digits value : Nat)

/-- The tokens found so far, in reverse, and what is being read. -/
structure Scanner where
  found : List Token
  scan : Scan

/-- Whether a character separates tokens and means nothing else. -/
def isBlank (c : Char) : Bool := c == ' ' || c == '\t' || c == '\n' || c == '\r'

/-- Characters that can continue a number.  What does not is the start of the next token. -/
def isNumberChar (c : Char) : Bool :=
  c.isDigit || c == '+' || c == '-' || c == '.' || c == 'e' || c == 'E'

/-- Read a character that does not continue the token before it. -/
def start (found : List Token) (c : Char) : Option Scanner :=
  if isBlank c then some ⟨found, .between⟩
  else if c.isDigit || c == '-' then some ⟨found, .number [c]⟩
  else if c.isLower then some ⟨found, .word [c]⟩
  else
    match c with
    | '[' => some ⟨.beginArray :: found, .between⟩
    | ']' => some ⟨.endArray :: found, .between⟩
    | '\x7b' => some ⟨.beginObject :: found, .between⟩
    | '\x7d' => some ⟨.endObject :: found, .between⟩
    | ',' => some ⟨.comma :: found, .between⟩
    | ':' => some ⟨.colon :: found, .between⟩
    | '"' => some ⟨found, .string []⟩
    | _ => none

/-- The token of a number. -/
def ofNumber (chars : List Char) : Option Token := (Number.ofLiteral chars).map .scalar

/-- The text token for the units of a finished string. -/
def ofUnits (units : List Nat) : Token := .text ((Text.ofUnits units).map String.ofList)

/-- Read one character. -/
def advance (s : Scanner) (c : Char) : Option Scanner :=
  match s.scan with
  | .between => start s.found c
  | .word letters =>
    if c.isLower then some ⟨s.found, .word (c :: letters)⟩
    else (ofWord letters.reverse).bind fun t => start (t :: s.found) c
  | .number chars =>
    if isNumberChar c then some ⟨s.found, .number (c :: chars)⟩
    else (ofNumber chars.reverse).bind fun t => start (t :: s.found) c
  | .string units =>
    if c = '"' then some ⟨ofUnits units.reverse :: s.found, .between⟩
    else if c = '\\' then some ⟨s.found, .escape units⟩
    else if c < ' ' then none
    else some ⟨s.found, .string (c.toNat :: units)⟩
  | .escape units =>
    if c = 'u' then some ⟨s.found, .hex units 0 0⟩
    else (Text.escaped c).map fun e => ⟨s.found, .string (e.toNat :: units)⟩
  | .hex units digits value =>
    (Text.hexValue c).map fun d =>
      if digits = 3 then ⟨s.found, .string ((16 * value + d) :: units)⟩
      else ⟨s.found, .hex units (digits + 1) (16 * value + d)⟩

/-- All tokens in reverse once the text has ended, `none` inside a string. -/
def finish (s : Scanner) : Option (List Token) :=
  match s.scan with
  | .between => some s.found
  | .word letters => (ofWord letters.reverse).map (· :: s.found)
  | .number chars => (ofNumber chars.reverse).map (· :: s.found)
  | .string _ | .escape _ | .hex _ _ _ => none

/-- The tokens of a text, `none` if some part of it is no token. -/
def scan (cs : List Char) : Option (List Token) :=
  ((cs.foldlM advance ⟨[], .between⟩).bind finish).map List.reverse

end Token

end Json

end UnitCheck
