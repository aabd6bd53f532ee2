import UnitCheck.Json.Record

/-!
# Source spans

A `Span` says where in a file something stands.  Lines and columns count from `1`, and all numbers
have 64 bits.  Every field of a span's document may be left out: the span that a document says
nothing about is empty, with all numbers `0`.

A file's name is Unicode text.  Names that are not have no JSON form, so a report that holds one
cannot be written; such names are left out here.
-/

set_option autoImplicit false

namespace UnitCheck

/-- A place in a source file. -/
structure Span where
  file : String := ""
  /-- Offset in bytes of the first character. -/
  start : UInt64 := 0
  /-- Offset in bytes behind the last character. -/
  stop : UInt64 := 0
  startLine : UInt64 := 0
  startCol : UInt64 := 0
  endLine : UInt64 := 0
  endCol : UInt64 := 0
deriving DecidableEq, Inhabited

namespace Span

/-- The span that stands for a whole file. -/
def ofFile (file : String) : Span := ⟨file, 0, 0, 1, 1, 1, 1⟩

/-- The span of `len` columns in one line. -/
def inLine (file : String) (line col len : UInt64) : Span :=
  ⟨file, 0, 0, line, col, line, col + len⟩

/-- The location in front of a message: file, line and column. -/
def header (s : Span) : String :=
  s.file ++ ":" ++ s.startLine.toNat.repr ++ ":" ++ s.startCol.toNat.repr

/-- The span with its file filled in where it has none. -/
def inFile (file : String) (s : Span) : Span :=
  if s.file = "" then { s with file := file } else s

/-! ## Documents -/

/-- The members of a span's document, in the order of its array form. -/
def fieldNames : List String :=
  ["file", "start", "end", "start_line", "start_col", "end_line", "end_col"]

/-- The document of a span. -/
def toJson (s : Span) : Json :=
  .obj [("file", .str s.file), ("start", Json.ofUInt64 s.start), ("end", Json.ofUInt64 s.stop),
    ("start_line", Json.ofUInt64 s.startLine), ("start_col", Json.ofUInt64 s.startCol),
    ("end_line", Json.ofUInt64 s.endLine), ("end_col", Json.ofUInt64 s.endCol)]

/-- Read a span. -/
def ofJson? (j : Json) : Option Span := do
  match ← j.fields fieldNames with
  | [file, start, stop, startLine, startCol, endLine, endCol] =>
    return {
      file := ← Json.withDefault "" Json.asString file
      start := ← Json.withDefault 0 Json.asUInt64 start
      stop := ← Json.withDefault 0 Json.asUInt64 stop
      startLine := ← Json.withDefault 0 Json.asUInt64 startLine
      startCol := ← Json.withDefault 0 Json.asUInt64 startCol
      endLine := ← Json.withDefault 0 Json.asUInt64 endLine
      endCol := ← Json.withDefault 0 Json.asUInt64 endCol }
  | _ => none

end Span

end UnitCheck
