import UnitCheck.Resolve

/-!
# Outcomes of resolving

Resolving an expression gives a type or a failure and adds to a list of diagnostics.  The list has
no say in what comes out, and what is added is told by the outcome: one diagnostic for a failure and
none for a type.  `Resolving.Records` says this of a computation, and it carries over from a
computation to what is done with its result (`records_bind`), so it holds however deep inside an
expression the failure arises (`Expr.records_resolve`).

`Expr.typeIn` is the outcome by itself.  It has an equation for each kind of expression, and proofs
about types use these and never the list.
-/

set_option autoImplicit false

namespace UnitCheck

namespace Resolving

variable {α β : Type}

/-- The diagnostics that an outcome calls for. -/
def recorded : Except ResolveError α → List Diagnostic
  | .ok _ => []
  | .error e => [e.toDiagnostic]

/-- The computation has the given outcome and records it, whatever was recorded before. -/
def Records (x : Resolving α) (r : Except ResolveError α) : Prop :=
  ∀ ds : List Diagnostic, x.run ds = (r, ds ++ recorded r)

theorem records_pure (a : α) : (pure a : Resolving α).Records (.ok a) :=
  fun ds => congrArg (Prod.mk _) (List.append_nil ds).symm

theorem records_fail (e : ResolveError) : (fail e : Resolving α).Records (.error e) := fun _ => rfl

/-- A failure is passed on and not recorded again. -/
theorem records_bind {x : Resolving α} {r : Except ResolveError α} (hx : x.Records r)
    {f : α → Resolving β} {g : α → Except ResolveError β} (hf : ∀ a, (f a).Records (g a)) :
    (x >>= f).Records (r >>= g) := by
  intro ds
  have hrun : (x >>= f).run ds = ExceptT.bindCont f (x.run ds).1 (x.run ds).2 := rfl
  rw [hrun, hx]
  cases r with
  | error e => rfl
  | ok a =>
    have hds : ds ++ recorded (Except.ok a) = ds := List.append_nil ds
    rw [hds]
    exact hf a ds

end Resolving

namespace Environment

variable {ι : Type} {env : Environment} {site : Site ι} {name : String}

theorem varType_unbound (hscope : site.scope = none) :
    env.varType site name = .error (.unresolvedName name site.span .unbound) := by
  rw [varType, hscope]

theorem varType_undeclared {s : ScopeId} (hscope : site.scope = some s)
    (hname : env.find? s name = none) :
    env.varType site name = .error (.unresolvedName name site.span .undeclared) := by
  rw [varType, hscope]
  simp only [hname]

theorem varType_declaredAs {s : ScopeId} {d : Declaration} (hscope : site.scope = some s)
    (hname : env.find? s name = some d) (hd : d.varTy? = none) :
    env.varType site name =
      .error (.unresolvedName name site.span (.declaredAs d.kind.describe)) := by
  rw [varType, hscope]
  simp only [hname, hd]

theorem varType_var {s : ScopeId} {d : Declaration} {ty : Ty} (hscope : site.scope = some s)
    (hname : env.find? s name = some d) (hd : d.varTy? = some ty) :
    env.varType site name = .ok ty := by
  rw [varType, hscope]
  simp only [hname, hd]

end Environment

namespace Ty

/-- What a call of a value of this type, at the given place, has as its type. -/
def called (ty : Ty) (span : Span) : Except ResolveError Ty :=
  match ty.result? with
  | some result => .ok result
  | none => .error (.notCallable ty span)

theorem called_of_result? {ty result : Ty} (h : ty.result? = some result) (span : Span) :
    ty.called span = .ok result := by
  rw [called, h]

theorem called_of_not_lambda {ty : Ty} (h : ty.isLambda = false) (span : Span) :
    ty.called span = .error (.notCallable ty span) := by
  rw [isLambda, Option.isSome_eq_false_iff, Option.isNone_iff_eq_none] at h
  rw [called, h]

end Ty

namespace Expr

variable {ι : Type}

/-- The type of an expression, or why it has none. -/
def typeIn (env : Environment) (e : Expr ι) : Except ResolveError Ty :=
  ((e.resolve env).run []).1

theorem typeIn_eq_of_records {env : Environment} {e : Expr ι} {r : Except ResolveError Ty}
    (h : (e.resolve env).Records r) : e.typeIn env = r :=
  congrArg Prod.fst (h [])

theorem records_call {env : Environment} {receiver : Expr ι} {r : Except ResolveError Ty}
    (h : (receiver.resolve env).Records r) (site : Site ι) (args : List (Expr ι)) :
    ((call site receiver args).resolve env).Records (r >>= fun ty => ty.called site.span) := by
  rw [resolve]
  refine Resolving.records_bind h fun ty => ?_
  rw [Ty.called]
  cases ty.result? with
  | some result => exact Resolving.records_pure result
  | none => exact Resolving.records_fail _

theorem records_ident (env : Environment) (site : Site ι) (name : String) :
    ((ident site name).resolve env).Records (env.varType site name) := by
  rw [resolve]
  cases env.varType site name with
  | ok ty => exact Resolving.records_pure ty
  | error e => exact Resolving.records_fail e

/-- **A failure is recorded once**, however deep in the expression it arises. -/
theorem records_resolve (env : Environment) (e : Expr ι) :
    (e.resolve env).Records (e.typeIn env) := by
  cases e with
  | literal site value => exact Resolving.records_pure value.ty
  | lambda site body => exact Resolving.records_fail _
  | ident site name =>
    have h := records_ident env site name
    rwa [typeIn_eq_of_records h]
  | call site receiver args =>
    have h := records_call (records_resolve env receiver) site args
    rwa [typeIn_eq_of_records h]

/-- The list of diagnostics has no say in the outcome. -/
theorem fst_run_resolve (env : Environment) (e : Expr ι) (ds : List Diagnostic) :
    ((e.resolve env).run ds).1 = e.typeIn env := by
  rw [records_resolve env e ds]

/-! ## The outcome for each kind of expression -/

section

variable (env : Environment) (site : Site ι)

theorem typeIn_literal (value : Literal) : (literal site value).typeIn env = .ok value.ty := rfl

theorem typeIn_lambda (body : List (Stmt ι)) :
    (lambda site body).typeIn env =
      .error (.unsupported "inferring the type of a lambda" site.span) := rfl

theorem typeIn_ident (name : String) : (ident site name).typeIn env = env.varType site name :=
  typeIn_eq_of_records (records_ident env site name)

theorem typeIn_call (receiver : Expr ι) (args : List (Expr ι)) :
    (call site receiver args).typeIn env =
      receiver.typeIn env >>= fun ty => ty.called site.span :=
  typeIn_eq_of_records (records_call (records_resolve env receiver) site args)

end

end Expr

end UnitCheck
