import UnitCheck.Json.Basic

/-!
# Reading records

A record is an object, its members in any order, or an array of its fields in their fixed order.
`Json.fields` brings both forms into one: the list of the record's fields, each with its value or
absent.  Unknown members of an object are passed over unseen; a known one may not be repeated, and
an array may stop early but not go on for too long.

A tagged value is a record of one of several kinds, named by the member with the tag's key or by the
first element of the array.  `Json.tagged` splits off the tag, `Json.variant` reads it.
-/

set_option autoImplicit false

namespace UnitCheck

namespace Json

/-! ## Scalars and lists -/

/-- Read a truth value. -/
def asBool : Json → Option Bool
  | .bool b => some b
  | _ => none

/-- Read a string. -/
def asString : Json → Option String
  | .str s => some s
  | _ => none

/-- Read a number of 32 bits. -/
def asUInt32 : Json → Option UInt32
  | .nat n => if n < UInt32.size then some n.toUInt32 else none
  | _ => none

/-- Read a number of 64 bits. -/
def asUInt64 : Json → Option UInt64
  | .nat n => if n < UInt64.size then some n.toUInt64 else none
  | _ => none

/-- The document of a number of 32 bits. -/
def ofUInt32 (n : UInt32) : Json := .nat n.toNat

/-- The document of a number of 64 bits. -/
def ofUInt64 (n : UInt64) : Json := .nat n.toNat

section

variable {α : Type}

/-- Read every element of an array. -/
def asList (read : Json → Option α) : Json → Option (List α)
  | .arr items => items.mapM read
  | _ => none

/-- Read a value or `null`. -/
def orNull (read : Json → Option α) : Json → Option (Option α)
  | .null => some none
  | j => (read j).map some

/-- The document of something that may be absent, where `null` stands for nothing. -/
def ofOption (write : α → Json) : Option α → Json
  | none => .null
  | some a => write a

/-! ## Fields -/

/-- Read a field that must be there. -/
def required (read : Json → Option α) (field : Option Json) : Option α :=
  field.bind read

/-- Read a field that has a default. -/
def withDefault (default : α) (read : Json → Option α) : Option Json → Option α
  | none => some default
  | some j => read j

end

/-- The value of a key: `some none` if no member has it, `none` if several do. -/
def only? (members : List (String × Json)) (key : String) : Option (Option Json) :=
  match members.filter fun m => m.1 == key with
  | [] => some none
  | [m] => some (some m.2)
  | _ => none

/-- The fields with these names, in their order, of an object or an array. -/
def fields (names : List String) : Json → Option (List (Option Json))
  | .obj members => names.mapM (only? members)
  | .arr items =>
    if items.length ≤ names.length then
      some (items.map some ++ List.replicate (names.length - items.length) none)
    else none
  | _ => none

/-! ## Tags -/

/-- Split a tagged value into its tag and the record of its fields. -/
def tagged (key : String) : Json → Option (Json × Json)
  | .obj members =>
    match members.filter fun m => m.1 == key with
    | [m] => some (m.2, .obj (members.filter fun m => m.1 != key))
    | _ => none
  | .arr (tag :: rest) => some (tag, .arr rest)
  | _ => none

/-- The variant that a tag names.  Inside another tagged value (`inner`) it may also be the
variant's number, counted from `0`. -/
def variant {α : Type} (variants : List (String × α)) (inner : Bool) : Json → Option α
  | .str s => variants.lookup s
  | .nat n => if inner then (variants[n]?).map Prod.snd else none
  | _ => none

/-- How deep a document may nest. -/
def maxDepth : Nat := 127

end Json

end UnitCheck
