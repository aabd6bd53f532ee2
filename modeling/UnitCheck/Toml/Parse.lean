import UnitCheck.Toml.Scalar

/-!
# Reading TOML documents

A document is a list of lines, each with a header, an entry, or nothing but perhaps a comment.
`Toml.statements` reads what is written in it, and `Toml.parse` puts the table of the document
together.  Arrays and inline tables nest at most `maxDepth` deep.
-/

set_option autoImplicit false

namespace UnitCheck

namespace Toml

/-! ## Values -/

/-- The elements of something, separated by commas. -/
def separated {α : Type} (element : Reader α) : Reader (List α) :=
  (do
    let first ← element
    let more ← Reader.many do
      Reader.char ','
      element
    return first :: more) <|> pure []

/-- An array of the given values.  A comma may follow the last one. -/
def array (value : Reader Written) : Reader Written := do
  Reader.char '['
  Reader.filler
  let items ← separated do
    Reader.filler
    let v ← value
    Reader.filler
    return v
  if !items.isEmpty then
    let _ ← Reader.optional (Reader.char ',')
  Reader.filler
  Reader.char ']'
  return .array items

/-- A key and its value. -/
def keyValue (value : Reader Written) : Reader (Key × Written) := do
  let key ← Key.read
  Reader.char '='
  Reader.blanks
  let v ← value
  Reader.blanks
  return (key, v)

/-- An inline table with the given values. -/
def inlineTable (value : Reader Written) : Reader Written := do
  Reader.char '\x7b'
  let entries ← separated (keyValue value)
  Reader.blanks
  Reader.char '\x7d'
  return .inline entries

/-- A value in which containers nest at most so deep. -/
def value : Nat → Reader Written
  | 0 => do return .scalar (← Scalar.read)
  | depth + 1 =>
    (do return .scalar (← Scalar.read)) <|> array (value depth) <|> inlineTable (value depth)

/-! ## Documents -/

/-- Read the header of a table, or of an element of an array of tables. -/
def header : Reader Statement := do
  Reader.char '['
  (do
    Reader.char '['
    let key ← Key.read
    Reader.word [']', ']']
    return .tables key) <|> (do
    let key ← Key.read
    Reader.char ']'
    return .table key)

/-- Read a key with its value. -/
def entry : Reader Statement := do
  let (key, v) ← keyValue (value maxDepth)
  return .entry key v

/-- A line, ended by a line break or the end of the text. -/
def line : Reader (Option Statement) := do
  Reader.blanks
  let statement ← Reader.optional (header <|> entry)
  Reader.blanks
  let _ ← Reader.optional Reader.comment
  Reader.lineBreak <|> Reader.done
  return statement

/-- A text without the mark that may begin it. -/
def dropMark : List Char → List Char
  | '\ufeff' :: cs => cs
  | cs => cs

/-- What is written in a text, `none` if it is not TOML. -/
def statements (text : String) : Option (List Statement) := do
  let (lines, rest) ← Reader.many line (dropMark text.toList)
  if rest.isEmpty then return lines.filterMap id else none

/-- The table of a document, `none` if the text is not TOML or defines something twice. -/
def parse (text : String) : Option Table := do
  let document ← (← statements text).foldlM Document.add {}
  return document.root

end Toml

end UnitCheck
