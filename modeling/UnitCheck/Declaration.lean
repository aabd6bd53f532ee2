import UnitCheck.Span
import UnitCheck.Ty

/-!
# Declarations

A declaration gives a name a meaning: a variable of some type, or the name of a type.  A *query*
says only that a name is needed; it is what an expression's dependencies are made of and is never
put into a scope.
-/

set_option autoImplicit false

namespace UnitCheck

/-- What a declaration says about its name. -/
inductive Declaration.Kind where
  | query
  | var (ty : Ty)
  | typeName (ty : Ty)
deriving DecidableEq, Inhabited

/-- A name with a meaning, and where it was given. -/
structure Declaration where
  span : Span := {}
  name : String
  kind : Declaration.Kind
deriving DecidableEq, Inhabited

namespace Declaration

/-- What a kind is called in a message. -/
def Kind.describe : Kind → String
  | .query => "unresolved reference"
  | .var _ => "variable"
  | .typeName _ => "type name"

/-- Whether a declaration only asks for its name. -/
def isQuery (d : Declaration) : Bool :=
  match d.kind with
  | .query => true
  | _ => false

/-- The type of the variable that is declared, if one is. -/
def varTy? (d : Declaration) : Option Ty :=
  match d.kind with
  | .var ty => some ty
  | _ => none

/-! ## Documents

The kind and the type stand beside span and name as members of one object.  A declaration is never
an array.  The span is a record read directly, so values of unknown members of it are not looked at;
all other members are taken in before the kind is known, so each of them must denote something. -/

/-- The members of a declaration that tell its kind. -/
def Kind.members : Kind → List (String × Json)
  | .query => [("kind", .str "query")]
  | .var ty => [("kind", .str "variable"), ("ty", ty.toJson)]
  | .typeName ty => [("kind", .str "type_name"), ("ty", ty.toJson)]

/-- The document of a declaration. -/
def toJson (d : Declaration) : Json :=
  .obj ([("span", d.span.toJson), ("name", .str d.name)] ++ d.kind.members)

/-- The kinds that a document can name, each with what it makes of a type. -/
inductive Form where
  | query
  | var
  | typeName

/-- The kinds by their tags. -/
def forms : List (String × Form) :=
  [("query", .query), ("variable", .var), ("type_name", .typeName)]

/-- Read the declared type. -/
def decodeTy (room : Nat) (body : Json) : Option Ty := do
  match ← body.fields ["ty"] with
  | [ty] => Json.required (Ty.decode room true) ty
  | _ => none

/-- Read the members that tell the kind. -/
def Kind.decode (room : Nat) (members : List (String × Json)) : Option Kind := do
  let (tag, body) ← Json.tagged "kind" (.obj members)
  match ← Json.variant forms true tag with
  | .query => return .query
  | .var => return .var (← decodeTy room body)
  | .typeName => return .typeName (← decodeTy room body)

/-- Read a declaration that nests at most `room` deep. -/
def ofJson? : Nat → Json → Option Declaration
  | room + 1, .obj members => do
    let own := ["span", "name"]
    let others := members.filter fun m => !own.contains m.1
    if others.all fun m => m.2.fits room then
      match ← Json.fields own (.obj members) with
      | [span, name] =>
        return {
          span := ← Json.withDefault {} Span.ofJson? span
          name := ← Json.required Json.asString name
          kind := ← Kind.decode room others }
      | _ => none
    else none
  | _, _ => none

end Declaration

end UnitCheck
