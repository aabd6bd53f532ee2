/-!
# Reading text piece by piece

A `Reader` takes something off the front of a text, or fails.  Alternatives are tried in order, each
on the same text.
-/

set_option autoImplicit false

namespace UnitCheck

namespace Toml

/-- Takes a value off the front of a text. -/
abbrev Reader (α : Type) : Type := StateT (List Char) Option α

namespace Reader

variable {α : Type}

/-- Take a character of a class. -/
def satisfy (p : Char → Bool) : Reader Char
  | [] => none
  | c :: rest => if p c then some (c, rest) else none

/-- Take the given character. -/
def char (c : Char) : Reader Unit
  | [] => none
  | d :: rest => if c = d then some ((), rest) else none

/-- Take the given characters. -/
def word : List Char → Reader Unit
  | [] => pure ()
  | c :: cs => do
    char c
    word cs

/-- Take all characters of a class from the front. -/
def run (p : Char → Bool) : Reader (List Char) := fun cs =>
  some (cs.takeWhile p, cs.dropWhile p)

/-- Read if possible. -/
def optional (r : Reader α) : Reader (Option α) := fun cs =>
  match r cs with
  | some (a, rest) => some (some a, rest)
  | none => some (none, cs)

/-- Read as often as possible, as long as something is taken. -/
def manyFrom (r : Reader α) (cs : List Char) : List α × List Char :=
  match r cs with
  | none => ([], cs)
  | some (a, rest) =>
    if rest.length < cs.length then
      let (as, rest) := manyFrom r rest
      (a :: as, rest)
    else ([], cs)
termination_by cs.length

/-- Read as often as it goes, which may be never. -/
def many (r : Reader α) : Reader (List α) := fun cs => some (manyFrom r cs)

/-- Succeed at the end of the text only. -/
def done : Reader Unit
  | [] => some ((), [])
  | _ :: _ => none

/-! ## Blanks and line ends -/

/-- Whether a character is white space within a line. -/
def isBlank (c : Char) : Bool := c == ' ' || c == '\t'

/-- Skip white space within a line. -/
def blanks : Reader Unit := do
  let _ ← run isBlank

/-- A line feed, with or without a carriage return in front. -/
def lineBreak : Reader Unit := word ['\n'] <|> word ['\r', '\n']

/-- Characters of text: a tab, and all but the control characters. -/
def isPlain (c : Char) : Bool := c == '\t' || (' ' ≤ c && c ≠ '\x7f')

/-- Read a comment up to the end of its line. -/
def comment : Reader Unit := do
  char '#'
  let _ ← run isPlain

/-- What may stand between the elements of an array. -/
def filler : Reader Unit := do
  let _ ← many ((do let _ ← satisfy isBlank) <|> lineBreak <|> comment)

end Reader

end Toml

end UnitCheck
