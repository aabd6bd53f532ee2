/-!
# JSON values

`Json` is what a JSON text denotes, with the members of an object in the order they were written
and repeated keys kept: whether a repetition is an error is for the reader of a record to say.

Two kinds of literal are well-formed text without denoting a value: a string with an unpaired
surrogate, and a number too large for a double.  Both become `Json.invalid`, and so does an object
with such a string as a key.  A record that ignores a member never looks at its value, so `invalid`
is an error only where a value is wanted; `Json.isValue` says that none occurs.

Of the numbers only the natural ones below `2 ^ 64` are ever wanted, so a number of any other form
is the one value `Json.real`.
-/

set_option autoImplicit false

namespace UnitCheck

/-- A JSON value. -/
inductive Json where
  | null
  | bool (b : Bool)
  /-- A natural number, written without sign, fraction or exponent. -/
  | nat (n : Nat)
  /-- Any other number of finite size. -/
  | real
  | str (s : String)
  | arr (items : List Json)
  | obj (members : List (String × Json))
  /-- Well-formed text that denotes no value. -/
  | invalid
deriving Inhabited

namespace Json

/-! ## Measures of a value -/

mutual

/-- Whether no part of the value is `invalid`. -/
def isValue : Json → Bool
  | .invalid => false
  | .arr items => areValues items
  | .obj members => membersAreValues members
  | .null | .bool _ | .nat _ | .real | .str _ => true

/-- Whether every element of an array denotes something. -/
def areValues : List Json → Bool
  | [] => true
  | j :: rest => j.isValue && areValues rest

/-- Whether the value of every member denotes something. -/
def membersAreValues : List (String × Json) → Bool
  | [] => true
  | (_, j) :: rest => j.isValue && membersAreValues rest

end

mutual

/-- How deep arrays and objects nest: `0` for a scalar, one more than the deepest part otherwise. -/
def depth : Json → Nat
  | .arr items => depths items + 1
  | .obj members => memberDepths members + 1
  | .null | .bool _ | .nat _ | .real | .str _ | .invalid => 0

/-- The greatest depth of an element. -/
def depths : List Json → Nat
  | [] => 0
  | j :: rest => max j.depth (depths rest)

/-- The greatest depth of the value of a member. -/
def memberDepths : List (String × Json) → Nat
  | [] => 0
  | (_, j) :: rest => max j.depth (memberDepths rest)

end

/-- A value may be taken apart where `room` levels of nesting are left if all of it denotes
something and it is no deeper than that. -/
def fits (room : Nat) (j : Json) : Bool :=
  j.isValue && decide (j.depth ≤ room)

/-! ## Sorting keys -/

/-- Put a member before the first one with a larger key. -/
def insertMember (m : String × Json) : List (String × Json) → List (String × Json)
  | [] => [m]
  | n :: rest => if n.1 < m.1 then n :: insertMember m rest else m :: n :: rest

mutual

/-- The same value with the members of every object in ascending order of their keys. -/
def sortKeys : Json → Json
  | .arr items => .arr (sortKeysAll items)
  | .obj members => .obj (sortMembers members)
  | .null => .null
  | .bool b => .bool b
  | .nat n => .nat n
  | .real => .real
  | .str s => .str s
  | .invalid => .invalid

/-- Put the keys in order in every element of an array. -/
def sortKeysAll : List Json → List Json
  | [] => []
  | j :: rest => j.sortKeys :: sortKeysAll rest

/-- The members of an object in the order of their keys, each with its own keys in order. -/
def sortMembers : List (String × Json) → List (String × Json)
  | [] => []
  | (k, j) :: rest => insertMember (k, j.sortKeys) (sortMembers rest)

end

end Json

end UnitCheck
