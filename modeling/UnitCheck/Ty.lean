import UnitCheck.Json.Record

/-!
# Types

A type is a name, a container applied to one parameter, or a lambda type.  `Ty.name` writes it down:
`List<i32>`, `i32,bool->str`, and `->str` for a lambda without parameters.  Equality is that of the
trees, not of the names: nothing marks where the parameters of a lambda begin.
-/

set_option autoImplicit false

namespace UnitCheck

/-- A type. -/
inductive Ty where
  | named (name : String)
  | applied (container parameter : Ty)
  | lambda (params : List Ty) (result : Ty)
deriving Inhabited

namespace Ty

/-- The integer type of a signedness and a length in bits. -/
def int (signed : Bool) (length : UInt32) : Ty :=
  .named ((if signed then "i" else "u") ++ length.toNat.repr)

/-! ## Names -/

mutual

/-- The name of a type. -/
def name : Ty → String
  | .named n => n
  | .applied container parameter => container.name ++ "<" ++ parameter.name ++ ">"
  | .lambda params result => ",".intercalate (names params) ++ "->" ++ result.name

/-- The names of a list of types. -/
def names : List Ty → List String
  | [] => []
  | t :: rest => t.name :: names rest

end

/-! ## Lambda types -/

/-- The types of the parameters, if the type is that of a lambda. -/
def params? : Ty → Option (List Ty)
  | .lambda params _ => some params
  | _ => none

/-- What a call of a value of this type has as its type. -/
def result? : Ty → Option Ty
  | .lambda _ result => some result
  | _ => none

/-- Whether a type is that of a lambda. -/
def isLambda (t : Ty) : Bool := t.result?.isSome

/-! ## Equality -/

mutual

/-- Decide whether two types are equal. -/
def decEq : (a b : Ty) → Decidable (a = b)
  | .named m, .named n =>
    if h : m = n then isTrue (by rw [h]) else isFalse (by simp [h])
  | .applied a b, .applied c d =>
    match decEq a c, decEq b d with
    | isTrue h, isTrue k => isTrue (by rw [h, k])
    | isFalse h, _ => isFalse (by simp [h])
    | _, isFalse k => isFalse (by simp [k])
  | .lambda ps r, .lambda qs s =>
    match decEqList ps qs, decEq r s with
    | isTrue h, isTrue k => isTrue (by rw [h, k])
    | isFalse h, _ => isFalse (by simp [h])
    | _, isFalse k => isFalse (by simp [k])
  | .named _, .applied _ _ | .named _, .lambda _ _ => isFalse nofun
  | .applied _ _, .named _ | .applied _ _, .lambda _ _ => isFalse nofun
  | .lambda _ _, .named _ | .lambda _ _, .applied _ _ => isFalse nofun

/-- Decide whether two lists of types are equal. -/
def decEqList : (as bs : List Ty) → Decidable (as = bs)
  | [], [] => isTrue rfl
  | a :: as, b :: bs =>
    match decEq a b, decEqList as bs with
    | isTrue h, isTrue k => isTrue (by rw [h, k])
    | isFalse h, _ => isFalse (by simp [h])
    | _, isFalse k => isFalse (by simp [k])
  | [], _ :: _ | _ :: _, [] => isFalse nofun

end

instance : DecidableEq Ty := decEq

/-! ## Documents -/

mutual

/-- The document of a type. -/
def toJson : Ty → Json
  | .named n => .obj [("type", .str "Secondary"), ("name", .str n)]
  | .applied container parameter =>
    .obj [("type", .str "ThirdLevel"), ("container", container.toJson),
      ("parameter", parameter.toJson)]
  | .lambda params result =>
    .obj [("type", .str "Lambda"), ("params", .arr (listToJson params)), ("ret", result.toJson)]

/-- The documents of a list of types. -/
def listToJson : List Ty → List Json
  | [] => []
  | t :: rest => t.toJson :: listToJson rest

end

/-- The kinds of type that a document can name. -/
inductive Form where
  | named
  | applied
  | lambda

/-- The forms of type by their tags. -/
def forms : List (String × Form) :=
  [("Secondary", .named), ("ThirdLevel", .applied), ("Lambda", .lambda)]

/-- Read a type that nests at most `room` deep. -/
def decode : Nat → Bool → Json → Option Ty
  | 0, _, _ => none
  | room + 1, inner, j => do
    let (tag, body) ← j.tagged "type"
    match ← Json.variant forms inner tag with
    | .named =>
      match ← body.fields ["name"] with
      | [name] => return .named (← Json.required Json.asString name)
      | _ => none
    | .applied =>
      match ← body.fields ["container", "parameter"] with
      | [container, parameter] =>
        return .applied (← Json.required (decode room true) container)
          (← Json.required (decode room true) parameter)
      | _ => none
    | .lambda =>
      match ← body.fields ["params", "ret"] with
      | [params, result] =>
        return .lambda (← Json.required (Json.asList (decode room true)) params)
          (← Json.required (decode room true) result)
      | _ => none

/-- Read the document of a type. -/
def ofJson? (j : Json) : Option Ty :=
  if j.fits Json.maxDepth then decode Json.maxDepth false j else none

end Ty

end UnitCheck
