import UnitCheck.Expr.Basic

/-!
# Automatic ids

A node without an id of its own gets the next one from a `Supply`.  One supply serves everything
that is read and built, so that no automatic id is given twice; it starts at `1` and has 64 bits.

A node draws its id when all that is inside it has been read.  What is called is taken to be read
before the arguments, as it is in the documents that are printed here; a document that has the
arguments first draws the same ids, but for other nodes.
-/

set_option autoImplicit false

namespace UnitCheck

/-- Where automatic ids come from: the next one to give. -/
structure Supply where
  next : UInt64 := 1

/-- Work that may draw automatic ids. -/
abbrev Numbered (α : Type) : Type := StateM Supply α

namespace Supply

/-- Take the next id. -/
def draw : Numbered NodeId := fun s => (⟨s.next⟩, ⟨s.next + 1⟩)

/-- Keep an id that is given, and draw one otherwise. -/
def fill : Option NodeId → Numbered NodeId
  | some id => pure id
  | none => draw

end Supply

namespace Site

/-- Give an expression node an id. -/
def number (s : Site (Option NodeId)) : Numbered (Site NodeId) := do
  let id ← Supply.fill s.id
  return ⟨id, s.span, s.scope⟩

end Site

mutual

/-- Give every node of an expression an id, inner nodes first. -/
def Expr.number : Expr (Option NodeId) → Numbered (Expr NodeId)
  | .literal site value => do
    let site ← site.number
    return .literal site value
  | .lambda site body => do
    let body ← Stmt.numberAll body
    let site ← site.number
    return .lambda site body
  | .ident site name => do
    let site ← site.number
    return .ident site name
  | .call site receiver args => do
    let receiver ← receiver.number
    let args ← Expr.numberAll args
    let site ← site.number
    return .call site receiver args

/-- Give every node of some expressions an id. -/
def Expr.numberAll : List (Expr (Option NodeId)) → Numbered (List (Expr NodeId))
  | [] => return []
  | e :: rest => do
    let e ← e.number
    let rest ← Expr.numberAll rest
    return e :: rest

/-- Give every node of an expression, if there is one, an id. -/
def Expr.numberOption : Option (Expr (Option NodeId)) → Numbered (Option (Expr NodeId))
  | none => return none
  | some e => do
    let e ← e.number
    return some e

/-- Give every node of a statement an id, inner nodes first. -/
def Stmt.number : Stmt (Option NodeId) → Numbered (Stmt NodeId)
  | .bind id span name ty value => do
    let value ← Expr.numberOption value
    let id ← Supply.fill id
    return .bind id span name ty value
  | .eval id span expr => do
    let expr ← expr.number
    let id ← Supply.fill id
    return .eval id span expr
  | .ret id span value => do
    let value ← Expr.numberOption value
    let id ← Supply.fill id
    return .ret id span value

/-- Give every node of some statements an id. -/
def Stmt.numberAll : List (Stmt (Option NodeId)) → Numbered (List (Stmt NodeId))
  | [] => return []
  | s :: rest => do
    let s ← s.number
    let rest ← Stmt.numberAll rest
    return s :: rest

end

/-! ## Building nodes -/

namespace Expr

/-- A new literal of a given type. -/
def newLiteral (span : Span) (text : String) (ty : Ty) : Numbered (Expr NodeId) := do
  let id ← Supply.draw
  return .literal { id, span } (.typed text ty)

/-- A new integer literal. -/
def newInt (span : Span) (text : String) (signed : Bool) (length : UInt32) :
    Numbered (Expr NodeId) := do
  let id ← Supply.draw
  return .literal { id, span } (.int text signed length)

/-- A new lambda around statements. -/
def newLambda (span : Span) (body : List (Stmt NodeId)) : Numbered (Expr NodeId) := do
  let id ← Supply.draw
  return .lambda { id, span } body

/-- A new name. -/
def newIdent (span : Span) (name : String) : Numbered (Expr NodeId) := do
  let id ← Supply.draw
  return .ident { id, span } name

/-- A new call of an expression. -/
def newCall (span : Span) (receiver : Expr NodeId) (args : List (Expr NodeId)) :
    Numbered (Expr NodeId) := do
  let id ← Supply.draw
  return .call { id, span } receiver args

end Expr

namespace Stmt

/-- A new binding of a name in a body. -/
def newBind (span : Span) (name : String) (ty : Option Ty) (value : Option (Expr NodeId)) :
    Numbered (Stmt NodeId) := do
  let id ← Supply.draw
  return .bind id span name ty value

/-- A new statement that is an expression. -/
def newEval (span : Span) (expr : Expr NodeId) : Numbered (Stmt NodeId) := do
  let id ← Supply.draw
  return .eval id span expr

/-- A new end of a body. -/
def newRet (span : Span) (value : Option (Expr NodeId)) : Numbered (Stmt NodeId) := do
  let id ← Supply.draw
  return .ret id span value

end Stmt

end UnitCheck
