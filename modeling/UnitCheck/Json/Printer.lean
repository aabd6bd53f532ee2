import UnitCheck.Json.Basic

/-!
# Printing JSON

`Json.render` writes a value without blanks.  Quotes, backslashes and the characters below `U+0020`
are escaped, everything else stands for itself.  So the text is a single line.

The two values without a literal of their own take the shortest one that reads back as them: `-0`
for a number that is not natural, `1e999` for what denotes nothing.
-/

set_option autoImplicit false

namespace UnitCheck

namespace Json

/-! ## Strings -/

/-- The hexadecimal digit of a number below sixteen. -/
def hexDigit (n : Nat) : Char :=
  if n < 10 then Char.ofNat ('0'.toNat + n) else Char.ofNat ('a'.toNat + (n - 10))

/-- How a character is written between quotes. -/
def escape (c : Char) : List Char :=
  match c with
  | '"' => ['\\', '"']
  | '\\' => ['\\', '\\']
  | '\x08' => ['\\', 'b']
  | '\x0c' => ['\\', 'f']
  | '\n' => ['\\', 'n']
  | '\r' => ['\\', 'r']
  | '\t' => ['\\', 't']
  | c =>
    if c < ' ' then ['\\', 'u', '0', '0', hexDigit (c.toNat / 16), hexDigit (c.toNat % 16)]
    else [c]

/-- A string literal. -/
def quote (s : String) : List Char :=
  '"' :: s.toList.flatMap escape ++ ['"']

/-! ## Values -/

mutual

/-- The characters of a value. -/
def chars : Json → List Char
  | .null => ['n', 'u', 'l', 'l']
  | .bool true => ['t', 'r', 'u', 'e']
  | .bool false => ['f', 'a', 'l', 's', 'e']
  | .nat n => Nat.toDigits 10 n
  | .real => ['-', '0']
  | .str s => quote s
  | .arr items => '[' :: itemChars items
  | .obj members => '\x7b' :: memberChars members
  | .invalid => ['1', 'e', '9', '9', '9']

/-- The elements of an array and its closing bracket. -/
def itemChars : List Json → List Char
  | [] => [']']
  | [j] => j.chars ++ [']']
  | j :: rest => j.chars ++ ',' :: itemChars rest

/-- The members of an object and its closing brace. -/
def memberChars : List (String × Json) → List Char
  | [] => ['\x7d']
  | [(k, j)] => quote k ++ ':' :: (j.chars ++ ['\x7d'])
  | (k, j) :: rest => quote k ++ ':' :: (j.chars ++ ',' :: memberChars rest)

end

/-- The text of a value. -/
def render (j : Json) : String := String.ofList j.chars

end Json

end UnitCheck
