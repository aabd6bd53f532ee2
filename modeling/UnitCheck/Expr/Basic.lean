import UnitCheck.Environment

/-!
# Expressions

Expressions are literals, lambdas, names and calls; the body of a lambda is a list of statements.
Every node carries an id and a span.  An expression node also has a scope once it is bound to one,
and keeps the first scope it gets.

The type of ids is a parameter: a tree read from a document has ids only where the document gives
them (`Option NodeId`), and is numbered afterwards.  Nothing here depends on ids.
-/

set_option autoImplicit false

namespace UnitCheck

/-- The id of a node. -/
structure NodeId where
  value : UInt64
deriving DecidableEq, Inhabited

/-! ## Literals -/

/-- A literal, kept as it is written. -/
inductive Literal where
  | int (text : String) (signed : Bool) (length : UInt32)
  | typed (text : String) (ty : Ty)
deriving DecidableEq, Inhabited

namespace Literal

/-- The length in bits of an integer literal that does not give one. -/
def defaultLength : UInt32 := 32

/-- The text of a literal, as it stands in the document. -/
def text : Literal → String
  | .int text _ _ => text
  | .typed text _ => text

/-- A literal fixes its type. -/
def ty : Literal → Ty
  | .int _ signed length => Ty.int signed length
  | .typed _ ty => ty

end Literal

/-! ## Trees -/

/-- What every expression node carries. -/
structure Site (ι : Type) where
  id : ι
  span : Span := {}
  scope : Option ScopeId := none

mutual

/-- An expression. -/
inductive Expr (ι : Type) where
  | literal (site : Site ι) (value : Literal)
  | lambda (site : Site ι) (body : List (Stmt ι))
  | ident (site : Site ι) (name : String)
  | call (site : Site ι) (receiver : Expr ι) (args : List (Expr ι))

/-- A statement in the body of a lambda. -/
inductive Stmt (ι : Type) where
  | bind (id : ι) (span : Span) (name : String) (ty : Option Ty) (value : Option (Expr ι))
  | eval (id : ι) (span : Span) (expr : Expr ι)
  | ret (id : ι) (span : Span) (value : Option (Expr ι))

end

section

variable {ι κ : Type}

namespace Expr

/-- The site of the outermost node. -/
def site : Expr ι → Site ι
  | .literal site _ => site
  | .lambda site _ => site
  | .ident site _ => site
  | .call site _ _ => site

/-- The id of the outermost node. -/
def id (e : Expr ι) : ι := e.site.id

/-- The span of the outermost node. -/
def span (e : Expr ι) : Span := e.site.span

/-- The scope that the outermost node is bound to. -/
def scope (e : Expr ι) : Option ScopeId := e.site.scope

/-- Whether statements treat an expression as a whole.  They treat every kind of it so. -/
def isAtomic : Expr ι → Bool
  | .literal _ _ => true
  | .lambda _ _ => true
  | .ident _ _ => true
  | .call _ _ _ => true

end Expr

namespace Stmt

/-- The span of a statement. -/
def span : Stmt ι → Span
  | .bind _ span _ _ _ => span
  | .eval _ span _ => span
  | .ret _ span _ => span

/-- The expressions that stand directly in a statement. -/
def exprs : Stmt ι → List (Expr ι)
  | .bind _ _ _ _ value => value.toList
  | .eval _ _ expr => [expr]
  | .ret _ _ value => value.toList

end Stmt

/-! ## Changing ids and scopes -/

namespace Site

/-- Change the id and the scope of a site. -/
def map (f : ι → κ) (g : Option ScopeId → Option ScopeId) (s : Site ι) : Site κ :=
  ⟨f s.id, s.span, g s.scope⟩

end Site

mutual

/-- The same tree with each node's id and each expression's scope changed. -/
def Expr.map (f : ι → κ) (g : Option ScopeId → Option ScopeId) : Expr ι → Expr κ
  | .literal site value => .literal (site.map f g) value
  | .lambda site body => .lambda (site.map f g) (Stmt.mapAll f g body)
  | .ident site name => .ident (site.map f g) name
  | .call site receiver args => .call (site.map f g) (receiver.map f g) (Expr.mapAll f g args)

/-- Change every id and every scope in a list of expressions. -/
def Expr.mapAll (f : ι → κ) (g : Option ScopeId → Option ScopeId) : List (Expr ι) → List (Expr κ)
  | [] => []
  | e :: rest => e.map f g :: Expr.mapAll f g rest

/-- Change every id and every scope in an expression that may be absent. -/
def Expr.mapOption (f : ι → κ) (g : Option ScopeId → Option ScopeId) :
    Option (Expr ι) → Option (Expr κ)
  | none => none
  | some e => some (e.map f g)

/-- Change every id and every scope in a statement. -/
def Stmt.map (f : ι → κ) (g : Option ScopeId → Option ScopeId) : Stmt ι → Stmt κ
  | .bind id span name ty value => .bind (f id) span name ty (Expr.mapOption f g value)
  | .eval id span expr => .eval (f id) span (expr.map f g)
  | .ret id span value => .ret (f id) span (Expr.mapOption f g value)

/-- Change every id and every scope in a block. -/
def Stmt.mapAll (f : ι → κ) (g : Option ScopeId → Option ScopeId) : List (Stmt ι) → List (Stmt κ)
  | [] => []
  | s :: rest => s.map f g :: Stmt.mapAll f g rest

end

namespace Expr

/-- Bind every node that has no scope yet, at any depth, to the given one. -/
def bind (e : Expr ι) (s : ScopeId) : Expr ι :=
  e.map (fun i => i) fun scope => some (scope.getD s)

/-- The same expression with its ids changed. -/
def mapId (f : ι → κ) (e : Expr ι) : Expr κ := e.map f fun scope => scope

end Expr

/-! ## Dependencies -/

mutual

/-- The names that an expression needs in scope, in the order they are written and as often, each as
a query.  What is called is not among them, and names that a body binds are not taken out. -/
def Expr.dependencies : Expr ι → List Declaration
  | .literal _ _ => []
  | .lambda _ body => Stmt.dependenciesAll body
  | .ident site name => [{ span := site.span, name := name, kind := .query }]
  | .call _ _ args => Expr.dependenciesAll args

/-- The dependencies of a list of expressions. -/
def Expr.dependenciesAll : List (Expr ι) → List Declaration
  | [] => []
  | e :: rest => e.dependencies ++ Expr.dependenciesAll rest

/-- The dependencies of an expression that may be absent. -/
def Expr.dependenciesOption : Option (Expr ι) → List Declaration
  | none => []
  | some e => e.dependencies

/-- The dependencies of a statement. -/
def Stmt.dependencies : Stmt ι → List Declaration
  | .bind _ _ _ _ value => Expr.dependenciesOption value
  | .eval _ _ expr => expr.dependencies
  | .ret _ _ value => Expr.dependenciesOption value

/-- The dependencies of a block. -/
def Stmt.dependenciesAll : List (Stmt ι) → List Declaration
  | [] => []
  | s :: rest => s.dependencies ++ Stmt.dependenciesAll rest

end

/-! ## Ids -/

mutual

/-- The ids of all nodes, statements included, each node before the nodes inside it. -/
def Expr.ids : Expr ι → List ι
  | .literal site _ => [site.id]
  | .lambda site body => site.id :: Stmt.idsAll body
  | .ident site _ => [site.id]
  | .call site receiver args => site.id :: (receiver.ids ++ Expr.idsAll args)

/-- The ids in a list of expressions. -/
def Expr.idsAll : List (Expr ι) → List ι
  | [] => []
  | e :: rest => e.ids ++ Expr.idsAll rest

/-- The ids in an expression that may be absent. -/
def Expr.idsOption : Option (Expr ι) → List ι
  | none => []
  | some e => e.ids

/-- The ids in a statement, its own first. -/
def Stmt.ids : Stmt ι → List ι
  | .bind id _ _ _ value => id :: Expr.idsOption value
  | .eval id _ expr => id :: expr.ids
  | .ret id _ value => id :: Expr.idsOption value

/-- The ids in a block. -/
def Stmt.idsAll : List (Stmt ι) → List ι
  | [] => []
  | s :: rest => s.ids ++ Stmt.idsAll rest

end

end

end UnitCheck
