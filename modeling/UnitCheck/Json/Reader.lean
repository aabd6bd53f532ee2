import UnitCheck.Json.Token

/-!
# Reading JSON

`Json.parse` accepts exactly one value with blanks around it.  The tokens are folded by a machine
whose state says what may come next; containers that are still open wait in a list of frames.
Nesting is not limited here: how deep a value may be depends on who takes it apart.
-/

set_option autoImplicit false

namespace UnitCheck

namespace Json

namespace Reader

/-- A container that is waiting for the value being read, with what came before it in reverse. -/
inductive Frame where
  | array (before : List Json)
  | object (before : List (Option String × Json)) (key : Option String)

/-- What has been read and what may come next. -/
inductive State where
  /-- The value is complete. -/
  | done (j : Json)
  /-- A value must follow. -/
  | value (outer : List Frame)
  /-- Right behind `[`. -/
  | arrayStart (outer : List Frame)
  /-- Behind an element. -/
  | arrayNext (items : List Json) (outer : List Frame)
  /-- Right behind the opening brace of an object. -/
  | objectStart (outer : List Frame)
  /-- A key must follow. -/
  | key (members : List (Option String × Json)) (outer : List Frame)
  /-- Behind a key. -/
  | keyNext (members : List (Option String × Json)) (key : Option String) (outer : List Frame)
  /-- Behind a member. -/
  | objectNext (members : List (Option String × Json)) (outer : List Frame)

/-- Hand a complete value to the innermost open container. -/
def deliver (j : Json) : List Frame → State
  | [] => .done j
  | .array before :: outer => .arrayNext (j :: before) outer
  | .object before key :: outer => .objectNext ((key, j) :: before) outer

/-- The members with their keys, `none` if some key denotes no text. -/
def namedMembers : List (Option String × Json) → Option (List (String × Json))
  | [] => some []
  | (none, _) :: _ => none
  | (some k, j) :: rest => (namedMembers rest).map ((k, j) :: ·)

/-- The object with these members. -/
def closeObject (members : List (Option String × Json)) : Json :=
  match namedMembers members with
  | some named => .obj named
  | none => .invalid

/-- Read a token that must begin a value. -/
def openValue (outer : List Frame) : Token → Option State
  | .scalar j => some (deliver j outer)
  | .text (some s) => some (deliver (.str s) outer)
  | .text none => some (deliver .invalid outer)
  | .beginArray => some (.arrayStart outer)
  | .beginObject => some (.objectStart outer)
  | .endArray | .endObject | .comma | .colon => none

/-- Read one token. -/
def step : State → Token → Option State
  | .value outer, t => openValue outer t
  | .arrayStart outer, .endArray => some (deliver (.arr []) outer)
  | .arrayStart outer, t => openValue (.array [] :: outer) t
  | .arrayNext items outer, .comma => some (.value (.array items :: outer))
  | .arrayNext items outer, .endArray => some (deliver (.arr items.reverse) outer)
  | .objectStart outer, .endObject => some (deliver (.obj []) outer)
  | .objectStart outer, .text k => some (.keyNext [] k outer)
  | .key members outer, .text k => some (.keyNext members k outer)
  | .keyNext members k outer, .colon => some (.value (.object members k :: outer))
  | .objectNext members outer, .comma => some (.key members outer)
  | .objectNext members outer, .endObject => some (deliver (closeObject members.reverse) outer)
  | _, _ => none

/-- The value that the machine ends with, if it has ended. -/
def result : State → Option Json
  | .done j => some j
  | _ => none

end Reader

/-- The value of a list of tokens. -/
def ofTokens (tokens : List Token) : Option Json :=
  (tokens.foldlM Reader.step (.value [])).bind Reader.result

/-- The value of a text, `none` if it is not JSON. -/
def parse (text : String) : Option Json :=
  (Token.scan text.toList).bind ofTokens

end Json

end UnitCheck
