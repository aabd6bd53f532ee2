import UnitCheck.Diagnostic.Basic
import UnitCheck.Diagnostic.Code
import UnitCheck.Expr.Basic

/-!
# Resolving types

The type of an expression is fixed by a literal, by the declaration of a name, or by the result of
what is called.  There is no inference: arguments are not looked at, and the type of a lambda is not
supported.  A failure is recorded as a diagnostic where it arises, and the calls around it pass it
on.
-/

set_option autoImplicit false

namespace UnitCheck

/-! ## Failures -/

/-- Why a name does not stand for a variable. -/
inductive NameFailure where
  /-- The node was never bound to a scope. -/
  | unbound
  /-- No scope in sight declares the name. -/
  | undeclared
  /-- The innermost declaration is of another kind. -/
  | declaredAs (kind : String)
deriving DecidableEq, Inhabited

/-- Why an expression has no type. -/
inductive ResolveError where
  | unresolvedName (name : String) (span : Span) (cause : NameFailure)
  | notCallable (found : Ty) (span : Span)
  | unsupported (feature : String) (span : Span)
deriving DecidableEq, Inhabited

namespace ResolveError

/-- The code of a failure. -/
def code : ResolveError → String
  | .unresolvedName _ _ _ => Code.unresolvedName
  | .notCallable _ _ => Code.notCallable
  | .unsupported _ _ => Code.notSupported

/-- Where a failure is. -/
def span : ResolveError → Span
  | .unresolvedName _ span _ => span
  | .notCallable _ span => span
  | .unsupported _ span => span

/-- Whether an expression failed for want of support, not for what it says. -/
def isUnsupported : ResolveError → Bool
  | .unsupported _ _ => true
  | _ => false

/-- The message about a failure. -/
def message : ResolveError → String
  | .unresolvedName name _ _ => "cannot resolve `" ++ name ++ "` to a variable declaration"
  | .notCallable found _ =>
    "the function call receiver should be a lambda, found `" ++ found.name ++ "`"
  | .unsupported feature _ => feature ++ " is not supported yet"

/-- What is added to the message, if anything. -/
def note? : ResolveError → Option String
  | .unresolvedName name _ (.declaredAs kind) => some ("`" ++ name ++ "` is declared as a " ++ kind)
  | .unresolvedName _ _ .unbound => some "expression was never bound to a scope"
  | .unresolvedName name _ .undeclared => some ("no declaration of `" ++ name ++ "` is in scope")
  | .notCallable _ _ => some "only values of a lambda type can be called"
  | .unsupported _ _ => none

/-- The diagnostic for a failure, with what is known about its cause as a note. -/
def toDiagnostic (e : ResolveError) : Diagnostic where
  code := e.code
  severity := .error
  message := e.message
  span := e.span
  notes := (e.note?.map fun m => { message := m }).toList

end ResolveError

/-! ## Resolution -/

/-- A computation that may fail and records every failure in a list of diagnostics. -/
abbrev Resolving (α : Type) : Type := ExceptT ResolveError (StateM (List Diagnostic)) α

namespace Resolving

/-- Record a failure and fail with it. -/
def fail {α : Type} (e : ResolveError) : Resolving α := do
  modify (· ++ [e.toDiagnostic])
  throw e

end Resolving

namespace Environment

/-- The type of the variable that a name stands for at a node. -/
def varType {ι : Type} (env : Environment) (site : Site ι) (name : String) :
    Except ResolveError Ty :=
  match site.scope with
  | none => .error (.unresolvedName name site.span .unbound)
  | some scope =>
    match env.find? scope name with
    | none => .error (.unresolvedName name site.span .undeclared)
    | some d =>
      match d.varTy? with
      | some ty => .ok ty
      | none => .error (.unresolvedName name site.span (.declaredAs d.kind.describe))

end Environment

namespace Expr

variable {ι : Type}

/-- The type of an expression. -/
def resolve (env : Environment) : Expr ι → Resolving Ty
  | .literal _ value => pure value.ty
  | .lambda site _ => Resolving.fail (.unsupported "inferring the type of a lambda" site.span)
  | .ident site name =>
    match env.varType site name with
    | .ok ty => pure ty
    | .error e => Resolving.fail e
  | .call site receiver _ => do
    let ty ← resolve env receiver
    match ty.result? with
    | some result => pure result
    | none => Resolving.fail (.notCallable ty site.span)

end Expr

/-! ## Checking many expressions -/

/-- Resolves expressions of one environment and collects the diagnostics. -/
structure Checker where
  env : Environment
  /-- Stop at the first failure. -/
  failFast : Bool := false
  diagnostics : List Diagnostic := []

namespace Checker

variable {ι : Type}

/-- Resolve one expression. -/
def exprType (c : Checker) (e : Expr ι) : Except ResolveError Ty × Checker :=
  let (result, diagnostics) := (e.resolve c.env).run c.diagnostics
  (result, { c with diagnostics := diagnostics })

/-- Resolve expressions in order: all of them, or up to the first failure. -/
def resolveAll (c : Checker) : List (Expr ι) → List (Except ResolveError Ty) × Checker
  | [] => ([], c)
  | e :: rest =>
    match c.exprType e with
    | (.error err, c) =>
      if c.failFast then ([.error err], c)
      else
        let (results, c) := c.resolveAll rest
        (.error err :: results, c)
    | (.ok ty, c) =>
      let (results, c) := c.resolveAll rest
      (.ok ty :: results, c)

/-- The types of all expressions, or all diagnostics so far if some expression has none. -/
def checkExprs (c : Checker) (es : List (Expr ι)) : Except (List Diagnostic) (List Ty) × Checker :=
  let (results, c) := c.resolveAll es
  match results.mapM (fun r => r.toOption) with
  | some types => (.ok types, c)
  | none => (.error c.diagnostics, c)

end Checker

end UnitCheck
