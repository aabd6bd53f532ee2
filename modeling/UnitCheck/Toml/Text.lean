import UnitCheck.Toml.Basic
import UnitCheck.Toml.Reader

/-!
# Strings and keys of TOML

There are four kinds of string.  Between quotes, escapes are replaced; between apostrophes, every
character stands for itself.  Either kind may take three marks on each side and then goes over
several lines: a line break right behind the opening marks is dropped, up to two marks may stand
inside, also right before the closing ones, and a backslash at the end of a line takes all blanks
and line breaks behind it away.
-/

set_option autoImplicit false

namespace UnitCheck

namespace Toml

namespace Text

/-! ## Escapes -/

/-- The value of a hexadecimal digit of either case. -/
def hexValue (c : Char) : Option Nat :=
  if c.isDigit then some (c.toNat - '0'.toNat)
  else if 'a' ≤ c ∧ c ≤ 'f' then some (c.toNat - 'a'.toNat + 10)
  else if 'A' ≤ c ∧ c ≤ 'F' then some (c.toNat - 'A'.toNat + 10)
  else none

/-- The character with a code point in hexadecimal digits. -/
def ofHex (digits : List Char) : Option Char := do
  let values ← digits.mapM hexValue
  let n := values.foldl (fun n d => 16 * n + d) 0
  if n.isValidChar then some (Char.ofNat n) else none

/-- The character that a single letter behind a backslash stands for. -/
def escaped (c : Char) : Option Char :=
  match c with
  | 'b' => some '\x08'
  | 't' => some '\t'
  | 'n' => some '\n'
  | 'f' => some '\x0c'
  | 'r' => some '\r'
  | '"' => some '"'
  | '\\' => some '\\'
  | _ => none

/-! ## Strings in one line -/

/-- Put a character in front of a string that was read. -/
def cons (c : Char) (read : Option (List Char × List Char)) : Option (List Char × List Char) :=
  read.map fun (cs, rest) => (c :: cs, rest)

/-- The rest of a string behind its opening quote. -/
def basicRest : List Char → Option (List Char × List Char)
  | [] => none
  | '"' :: rest => some ([], rest)
  | '\\' :: 'u' :: a :: b :: c :: d :: rest =>
    (ofHex [a, b, c, d]).bind fun x => cons x (basicRest rest)
  | '\\' :: 'U' :: a :: b :: c :: d :: e :: f :: g :: h :: rest =>
    (ofHex [a, b, c, d, e, f, g, h]).bind fun x => cons x (basicRest rest)
  | '\\' :: c :: rest => (escaped c).bind fun x => cons x (basicRest rest)
  | c :: rest => if Reader.isPlain c && c ≠ '\\' then cons c (basicRest rest) else none

/-- The rest of a literal string behind its opening apostrophe. -/
def literalRest : List Char → Option (List Char × List Char)
  | [] => none
  | '\'' :: rest => some ([], rest)
  | c :: rest => if Reader.isPlain c then cons c (literalRest rest) else none

/-! ## Strings over several lines -/

/-- Where the reader of a long string is. -/
inductive Place where
  /-- In the text. -/
  | inside
  /-- Behind a backslash and perhaps blanks, before a line break. -/
  | lineEnd
  /-- Behind that line break, where nothing but blanks and line breaks is dropped. -/
  | trimming

/-- The rest of a long string behind its opening quotes. -/
def longBasicRest : Place → List Char → Option (List Char × List Char)
  | _, [] => none
  | .lineEnd, '\n' :: rest => longBasicRest .trimming rest
  | .lineEnd, '\r' :: '\n' :: rest => longBasicRest .trimming rest
  | .lineEnd, c :: rest => if Reader.isBlank c then longBasicRest .lineEnd rest else none
  | .trimming, '\n' :: rest => longBasicRest .trimming rest
  | .trimming, '\r' :: '\n' :: rest => longBasicRest .trimming rest
  | .trimming, ' ' :: rest => longBasicRest .trimming rest
  | .trimming, '\t' :: rest => longBasicRest .trimming rest
  | _, '"' :: '"' :: '"' :: '"' :: '"' :: rest => some (['"', '"'], rest)
  | _, '"' :: '"' :: '"' :: '"' :: rest => some (['"'], rest)
  | _, '"' :: '"' :: '"' :: rest => some ([], rest)
  | _, '\n' :: rest => cons '\n' (longBasicRest .inside rest)
  | _, '\r' :: '\n' :: rest => cons '\n' (longBasicRest .inside rest)
  | _, '\\' :: 'u' :: a :: b :: c :: d :: rest =>
    (ofHex [a, b, c, d]).bind fun x => cons x (longBasicRest .inside rest)
  | _, '\\' :: 'U' :: a :: b :: c :: d :: e :: f :: g :: h :: rest =>
    (ofHex [a, b, c, d, e, f, g, h]).bind fun x => cons x (longBasicRest .inside rest)
  | _, '\\' :: '\n' :: rest => longBasicRest .trimming rest
  | _, '\\' :: '\r' :: '\n' :: rest => longBasicRest .trimming rest
  | _, '\\' :: ' ' :: rest => longBasicRest .lineEnd rest
  | _, '\\' :: '\t' :: rest => longBasicRest .lineEnd rest
  | _, '\\' :: c :: rest => (escaped c).bind fun x => cons x (longBasicRest .inside rest)
  | _, c :: rest =>
    if Reader.isPlain c && c ≠ '\\' then cons c (longBasicRest .inside rest) else none

/-- The rest of a long literal string behind its opening apostrophes. -/
def longLiteralRest : List Char → Option (List Char × List Char)
  | [] => none
  | '\'' :: '\'' :: '\'' :: '\'' :: '\'' :: rest => some (['\'', '\''], rest)
  | '\'' :: '\'' :: '\'' :: '\'' :: rest => some (['\''], rest)
  | '\'' :: '\'' :: '\'' :: rest => some ([], rest)
  | '\n' :: rest => cons '\n' (longLiteralRest rest)
  | '\r' :: '\n' :: rest => cons '\n' (longLiteralRest rest)
  | c :: rest => if Reader.isPlain c then cons c (longLiteralRest rest) else none

/-- Drop a line break at the front. -/
def dropBreak : List Char → List Char
  | '\n' :: rest => rest
  | '\r' :: '\n' :: rest => rest
  | cs => cs

/-! ## Readers -/

/-- A string in one line. -/
def short : Reader String := fun cs =>
  let read :=
    match cs with
    | '"' :: rest => basicRest rest
    | '\'' :: rest => literalRest rest
    | _ => none
  read.map fun (s, rest) => (String.ofList s, rest)

/-- A string of any kind. -/
def string : Reader String := fun cs =>
  match cs with
  | '"' :: '"' :: '"' :: rest =>
    (longBasicRest .inside (dropBreak rest)).map fun (s, rest) => (String.ofList s, rest)
  | '\'' :: '\'' :: '\'' :: rest =>
    (longLiteralRest (dropBreak rest)).map fun (s, rest) => (String.ofList s, rest)
  | _ => short cs

end Text

/-! ## Keys -/

namespace Key

/-- Whether a character may stand in a key without quotes. -/
def isBare (c : Char) : Bool := c.isAlphanum || c == '_' || c == '-'

/-- A single key, bare or quoted, with blanks around it. -/
def simple : Reader String := do
  Reader.blanks
  let key ← Text.short <|> (do
    let first ← Reader.satisfy isBare
    let more ← Reader.run isBare
    return String.ofList (first :: more))
  Reader.blanks
  return key

/-- The key with these parts, the first of them given by itself. -/
def ofParts : String → List String → Key
  | first, [] => ⟨[], first⟩
  | first, second :: rest =>
    let key := ofParts second rest
    ⟨first :: key.path, key.last⟩

/-- Single keys with dots between them, at most `maxDepth` of them. -/
def read : Reader Key := do
  let first ← simple
  let more ← Reader.many do
    Reader.char '.'
    simple
  if more.length < maxDepth then return ofParts first more else failure

end Key

end Toml

end UnitCheck
