import UnitCheck.Expr.Basic

/-!
# Expressions as documents

The JSON form of literals, expressions and statements.  The scope of a node is not part of it.  A
document may leave ids out, so reading gives a tree with optional ids; writing takes a tree with
all of them.  A statement writes an absent type or value as `null`, and a call without arguments
writes an empty list; reading accepts both also when they are left out.
-/

set_option autoImplicit false

namespace UnitCheck

namespace NodeId

/-- The document of an id. -/
def toJson (i : NodeId) : Json := Json.ofUInt64 i.value

/-- Read an id that may be left out. -/
def ofField? : Option Json → Option (Option NodeId)
  | none => some none
  | some j => (Json.asUInt64 j).map fun n => some ⟨n⟩

end NodeId

/-- Read a span that may be left out. -/
def Span.ofField? (field : Option Json) : Option Span := Json.withDefault {} Span.ofJson? field

/-! ## Literals -/

namespace Literal

/-- The document of a literal. -/
def toJson : Literal → Json
  | .int text signed length =>
    .obj [("kind", .str "int"), ("value", .str text), ("signed", .bool signed),
      ("length", Json.ofUInt32 length)]
  | .typed text ty => .obj [("kind", .str "typed"), ("value", .str text), ("ty", ty.toJson)]

/-- The kinds of literal that a document can name. -/
inductive Form where
  | int
  | typed

/-- The kinds of literal by their tags. -/
def forms : List (String × Form) := [("int", .int), ("typed", .typed)]

/-- Read a literal that nests at most `room` deep. -/
def decode (room : Nat) (inner : Bool) (j : Json) : Option Literal := do
  let (tag, body) ← j.tagged "kind"
  match ← Json.variant forms inner tag with
  | .int =>
    match ← body.fields ["value", "signed", "length"] with
    | [text, signed, length] =>
      return .int (← Json.required Json.asString text) (← Json.required Json.asBool signed)
        (← Json.withDefault defaultLength Json.asUInt32 length)
    | _ => none
  | .typed =>
    match ← body.fields ["value", "ty"] with
    | [text, ty] =>
      return .typed (← Json.required Json.asString text) (← Json.required (Ty.decode room true) ty)
    | _ => none

/-- Read the document of a literal. -/
def ofJson? (j : Json) : Option Literal :=
  if j.fits Json.maxDepth then decode Json.maxDepth false j else none

end Literal

/-! ## Writing -/

mutual

/-- The document of an expression. -/
def Expr.toJson : Expr NodeId → Json
  | .literal site value =>
    .obj [("type", .str "Literal"), ("id", site.id.toJson), ("span", site.span.toJson),
      ("literal", value.toJson)]
  | .lambda site body =>
    .obj [("type", .str "Lambda"), ("id", site.id.toJson), ("span", site.span.toJson),
      ("body", .arr (Stmt.listToJson body))]
  | .ident site name =>
    .obj [("type", .str "Variable"), ("id", site.id.toJson), ("span", site.span.toJson),
      ("name", .str name)]
  | .call site receiver args =>
    .obj [("type", .str "Call"), ("id", site.id.toJson), ("span", site.span.toJson),
      ("receiver", receiver.toJson), ("args", .arr (Expr.listToJson args))]

/-- The documents of a list of expressions. -/
def Expr.listToJson : List (Expr NodeId) → List Json
  | [] => []
  | e :: rest => e.toJson :: Expr.listToJson rest

/-- The document of an expression that may be absent. -/
def Expr.optionToJson : Option (Expr NodeId) → Json
  | none => .null
  | some e => e.toJson

/-- The document of a statement. -/
def Stmt.toJson : Stmt NodeId → Json
  | .bind id span name ty value =>
    .obj [("type", .str "Let"), ("id", id.toJson), ("span", span.toJson), ("name", .str name),
      ("ty", Json.ofOption Ty.toJson ty), ("value", Expr.optionToJson value)]
  | .eval id span expr =>
    .obj [("type", .str "Expr"), ("id", id.toJson), ("span", span.toJson), ("expr", expr.toJson)]
  | .ret id span value =>
    .obj [("type", .str "Return"), ("id", id.toJson), ("span", span.toJson),
      ("value", Expr.optionToJson value)]

/-- The documents of the statements of a block. -/
def Stmt.listToJson : List (Stmt NodeId) → List Json
  | [] => []
  | s :: rest => s.toJson :: Stmt.listToJson rest

end

/-! ## Reading -/

/-- The kinds of expression that a document can name. -/
inductive Expr.Form where
  | literal
  | lambda
  | ident
  | call

/-- The forms of expression by their tags. -/
def Expr.forms : List (String × Expr.Form) :=
  [("Literal", .literal), ("Lambda", .lambda), ("Variable", .ident), ("Call", .call)]

/-- The kinds of statement that a document can name. -/
inductive Stmt.Form where
  | bind
  | eval
  | ret

/-- The forms of statement by their tags. -/
def Stmt.forms : List (String × Stmt.Form) :=
  [("Let", .bind), ("Expr", .eval), ("Return", .ret)]

/-- Read the fields that all expressions have. -/
def Site.decode (id span : Option Json) : Option (Site (Option NodeId)) := do
  return { id := ← NodeId.ofField? id, span := ← Span.ofField? span }

mutual

/-- Read an expression that nests at most `room` deep. -/
def Expr.decode : Nat → Bool → Json → Option (Expr (Option NodeId))
  | 0, _, _ => none
  | room + 1, inner, j => do
    let (tag, body) ← j.tagged "type"
    match ← Json.variant Expr.forms inner tag with
    | .literal =>
      match ← body.fields ["id", "span", "literal"] with
      | [id, span, value] =>
        return .literal (← Site.decode id span) (← Json.required (Literal.decode room true) value)
      | _ => none
    | .lambda =>
      match ← body.fields ["id", "span", "body"] with
      | [id, span, stmts] =>
        return .lambda (← Site.decode id span)
          (← Json.required (Json.asList (Stmt.decode room true)) stmts)
      | _ => none
    | .ident =>
      match ← body.fields ["id", "span", "name"] with
      | [id, span, name] =>
        return .ident (← Site.decode id span) (← Json.required Json.asString name)
      | _ => none
    | .call =>
      match ← body.fields ["id", "span", "receiver", "args"] with
      | [id, span, receiver, args] =>
        return .call (← Site.decode id span) (← Json.required (Expr.decode room true) receiver)
          (← Json.withDefault [] (Json.asList (Expr.decode room true)) args)
      | _ => none

/-- Read a statement that nests at most `room` deep. -/
def Stmt.decode : Nat → Bool → Json → Option (Stmt (Option NodeId))
  | 0, _, _ => none
  | room + 1, inner, j => do
    let (tag, body) ← j.tagged "type"
    match ← Json.variant Stmt.forms inner tag with
    | .bind =>
      match ← body.fields ["id", "span", "name", "ty", "value"] with
      | [id, span, name, ty, value] =>
        return .bind (← NodeId.ofField? id) (← Span.ofField? span)
          (← Json.required Json.asString name)
          (← Json.withDefault none (Json.orNull (Ty.decode room true)) ty)
          (← Json.withDefault none (Json.orNull (Expr.decode room true)) value)
      | _ => none
    | .eval =>
      match ← body.fields ["id", "span", "expr"] with
      | [id, span, expr] =>
        return .eval (← NodeId.ofField? id) (← Span.ofField? span)
          (← Json.required (Expr.decode room true) expr)
      | _ => none
    | .ret =>
      match ← body.fields ["id", "span", "value"] with
      | [id, span, value] =>
        return .ret (← NodeId.ofField? id) (← Span.ofField? span)
          (← Json.withDefault none (Json.orNull (Expr.decode room true)) value)
      | _ => none

end

/-- Read the document of an expression where `room` levels of nesting are left. -/
def Expr.ofJson? (room : Nat) (j : Json) : Option (Expr (Option NodeId)) :=
  if j.fits room then Expr.decode room false j else none

/-- Read the document of a statement. -/
def Stmt.ofJson? (j : Json) : Option (Stmt (Option NodeId)) :=
  if j.fits Json.maxDepth then Stmt.decode Json.maxDepth false j else none

end UnitCheck
