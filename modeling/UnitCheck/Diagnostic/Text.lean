import UnitCheck.Diagnostic.Json

/-!
# Diagnostics as text

`Diagnostic.text` is what a person reads: a headline, the location, the source line with the span
underlined if the source has such a line, and the notes.  Columns are not held to the length of the
line.  A span that ends on another line is underlined to the end of its first line, whose length is
taken in bytes.

The columns of a span are any numbers, so the row with the underline may be longer than a text can
be.  Building it then breaks the program off, and there is no text (`Diagnostic.listText?`).
-/

set_option autoImplicit false

namespace UnitCheck

/-! ## Lines of a text -/

namespace Source

/-- A finished line from its characters in reverse, less one carriage return at its end. -/
def endLine : List Char → List Char
  | '\r' :: cs => cs.reverse
  | cs => cs.reverse

/-- The lines of a text whose current line has begun with the given characters, in reverse.  What
follows the last line feed is a line only if it is not empty, and keeps a carriage return. -/
def linesFrom : List Char → List Char → List (List Char)
  | [], [] => []
  | line, [] => [line.reverse]
  | line, '\n' :: rest => endLine line :: linesFrom [] rest
  | line, c :: rest => linesFrom (c :: line) rest

/-- The lines of a text. -/
def lines (text : String) : List String :=
  (linesFrom [] text.toList).map String.ofList

end Source

namespace Diagnostic

/-- A character over and over, as often as a text has room for (`maxBytes`). -/
def repeatChar (n : Nat) (c : Char) : String := String.ofList (List.replicate n c)

/-- A number at the right end of three columns. -/
def lineNumber (n : Nat) : String :=
  repeatChar (3 - n.repr.length) ' ' ++ n.repr

/-- The length of the underline below a source line. -/
def underlineLength (s : Span) (line : String) : Nat :=
  if s.endLine = s.startLine then max (s.endCol.toNat - s.startCol.toNat) 1
  else line.utf8ByteSize - (s.startCol.toNat - 1)

/-- The source line that a span starts on, with its start underlined. -/
def excerpt (s : Span) (line : String) : String :=
  "   |\n" ++ lineNumber s.startLine.toNat ++ " | " ++ line ++ "\n   | " ++
    repeatChar (s.startCol.toNat - 1) ' ' ++ repeatChar (underlineLength s line) '^' ++ "\n"

/-- The line that a span starts on, if the source has it. -/
def sourceLine? (source : String) (s : Span) : Option String :=
  if s.startLine = 0 then none else (Source.lines source)[s.startLine.toNat - 1]?

/-- A note below a diagnostic. -/
def noteText (n : Note) : String := "   = note: " ++ n.message ++ "\n"

/-- The first line of a diagnostic: how bad it is, its code and its message. -/
def headline (d : Diagnostic) : String :=
  d.severity.name ++ "[" ++ d.code ++ "]: " ++ d.message

/-- The line that says where a diagnostic is. -/
def locationLine (d : Diagnostic) : String := "  --> " ++ d.span.header

/-- The text of a diagnostic down to its location. -/
def head (d : Diagnostic) : String := d.headline ++ "\n" ++ d.locationLine ++ "\n"

/-- The text of a diagnostic with the given source line. -/
def textWith (d : Diagnostic) (line? : Option String) : String :=
  d.head ++ (line?.map (excerpt d.span)).getD "" ++ String.join (d.notes.map noteText)

/-- The text of a diagnostic about the given source. -/
def text (source : String) (d : Diagnostic) : String := d.textWith (sourceLine? source d.span)

/-- The texts of several diagnostics, with an empty line between any two. -/
def listText (source : String) (ds : List Diagnostic) : String :=
  "\n".intercalate (ds.map (text source))

/-! ## Texts that are too long -/

/-- How many bytes a text may have. -/
def maxBytes : Nat := 9223372036854775807

/-- Whether the blanks and the carets below a source line each make a text. -/
def canUnderline (s : Span) (line : String) : Bool :=
  decide (s.startCol.toNat - 1 ≤ maxBytes) && decide (underlineLength s line ≤ maxBytes)

/-- Whether nothing in the text of a diagnostic is too long. -/
def fits (source : String) (d : Diagnostic) : Bool :=
  (sourceLine? source d.span).all (canUnderline d.span)

/-- The texts of several diagnostics, unless building one of them breaks off. -/
def listText? (source : String) (ds : List Diagnostic) : Option String :=
  if ds.all (fits source) then some (listText source ds) else none

end Diagnostic

end UnitCheck
