import Mathlib.Data.List.Induction
import UnitCheck.Proofs.Resolve.Basic

/-!
# The spine of an expression

Every expression is a head that is no call with calls around it, each calling what is inside it
(`Expr.head`, `Expr.calls`).  Resolving goes down this spine and up again, and looks at nothing
else.  So the outcome can be written down from the outside: `HeadType` says what the head has as its
type, and then each call takes the result of a lambda type, up to the first type that is none.

The two facts behind `resolve_spine` are that a failure passes through all calls around it
(`typeIn_callAll_of_error`) and that calls take results one by one (`typeIn_callAll_of_ok`).
-/

set_option autoImplicit false

namespace UnitCheck

/-! ## Results of results -/

namespace Ty

variable {t r : Ty} {n : Nat}

/-- The result of the result, `n` times. -/
def resultAfter (t : Ty) : Nat → Option Ty
  | 0 => some t
  | n + 1 => (t.resultAfter n).bind result?

/-- The first `n` times that a result is taken, it is that of a lambda type. -/
def LambdaFor (t : Ty) (n : Nat) : Prop :=
  ∀ i, i < n → ∃ r, t.resultAfter i = some r ∧ r.isLambda = true

theorem lambdaFor_zero (t : Ty) : t.LambdaFor 0 := fun i hi => absurd hi (Nat.not_lt_zero i)

theorem LambdaFor.succ (h : t.LambdaFor n) (hr : t.resultAfter n = some r)
    (hlambda : r.isLambda = true) : t.LambdaFor (n + 1) := by
  intro i hi
  rcases Nat.lt_or_eq_of_le (Nat.le_of_lt_succ hi) with hlt | rfl
  · exact h i hlt
  · exact ⟨r, hr, hlambda⟩

theorem LambdaFor.exists_resultAfter (h : t.LambdaFor n) : ∃ r, t.resultAfter n = some r := by
  cases n with
  | zero => exact ⟨t, rfl⟩
  | succ n =>
    obtain ⟨r, hr, hlambda⟩ := h n (Nat.lt_succ_self n)
    obtain ⟨s, hs⟩ := Option.isSome_iff_exists.1 hlambda
    exact ⟨s, by rw [resultAfter, hr, Option.bind_some, hs]⟩

/-- Where a result cannot be taken `n` times, there is a first type that is no lambda type. -/
theorem exists_first_of_not_lambdaFor (h : ¬t.LambdaFor n) :
    ∃ j, j < n ∧ t.LambdaFor j ∧ ∃ found, t.resultAfter j = some found ∧
      found.isLambda = false := by
  induction n with
  | zero => exact absurd (lambdaFor_zero t) h
  | succ n ih =>
    by_cases hn : t.LambdaFor n
    · obtain ⟨r, hr⟩ := hn.exists_resultAfter
      refine ⟨n, Nat.lt_succ_self n, hn, r, hr, ?_⟩
      rw [← Bool.not_eq_true]
      exact fun hlambda => h (hn.succ hr hlambda)
    · obtain ⟨j, hj, rest⟩ := ih hn
      exact ⟨j, Nat.lt_succ_of_lt hj, rest⟩

end Ty

namespace Expr

variable {ι κ : Type}

/-! ## Heads and calls -/

/-- A call without what is called. -/
structure Call (ι : Type) where
  site : Site ι
  args : List (Expr ι)

/-- What is called inside all calls. -/
def head : Expr ι → Expr ι
  | .call _ receiver _ => receiver.head
  | .literal site value => .literal site value
  | .lambda site body => .lambda site body
  | .ident site name => .ident site name

/-- The calls around the head, innermost first. -/
def calls : Expr ι → List (Call ι)
  | .call site receiver args => receiver.calls ++ [⟨site, args⟩]
  | .literal _ _ | .lambda _ _ | .ident _ _ => []

/-- Calls around an expression, innermost first. -/
def callAll (h : Expr ι) (calls : List (Call ι)) : Expr ι :=
  calls.foldl (fun receiver c => .call c.site receiver c.args) h

theorem callAll_append (h : Expr ι) (cs ds : List (Call ι)) :
    h.callAll (cs ++ ds) = (h.callAll cs).callAll ds := List.foldl_append

theorem callAll_head_calls (e : Expr ι) : e.head.callAll e.calls = e := by
  cases e with
  | literal site value => rfl
  | lambda site body => rfl
  | ident site name => rfl
  | call site receiver args =>
    rw [head, calls, callAll_append, callAll_head_calls receiver]
    rfl

/-! ## Going up -/

section

variable {env : Environment} {h : Expr ι}

theorem typeIn_callAll_of_error {e : ResolveError} (hh : h.typeIn env = .error e)
    (cs : List (Call ι)) : (h.callAll cs).typeIn env = .error e := by
  induction cs generalizing h with
  | nil => exact hh
  | cons c cs ih =>
    refine ih ?_
    rw [typeIn_call, hh]
    rfl

theorem typeIn_callAll_of_ok {t r : Ty} (hh : h.typeIn env = .ok t) (cs : List (Call ι))
    (hr : t.resultAfter cs.length = some r) : (h.callAll cs).typeIn env = .ok r := by
  -- by induction on the outermost call, which is where the last result is taken
  induction cs using List.reverseRecOn generalizing r with
  | nil =>
    cases hr
    exact hh
  | append_singleton cs c ih =>
    rw [List.length_append, List.length_singleton, Ty.resultAfter] at hr
    obtain ⟨s, hs, hsr⟩ := Option.bind_eq_some_iff.1 hr
    have hcall : (h.callAll (cs ++ [c])).typeIn env =
        (h.callAll cs).typeIn env >>= fun ty => ty.called c.site.span := by
      rw [callAll_append]
      exact typeIn_call env c.site (h.callAll cs) c.args
    rw [hcall, ih hs]
    exact Ty.called_of_result? hsr c.site.span

/-- The first call that meets a type that is no lambda type fails, and that is the outcome. -/
theorem typeIn_callAll_of_not_lambda {t found : Ty} (hh : h.typeIn env = .ok t)
    {cs : List (Call ι)} {j : Nat} {c : Call ι} (hc : cs[j]? = some c)
    (hfound : t.resultAfter j = some found) (hlambda : found.isLambda = false) :
    (h.callAll cs).typeIn env = .error (.notCallable found c.site.span) := by
  obtain ⟨hj, rfl⟩ := List.getElem?_eq_some_iff.1 hc
  have hinner : (h.callAll (cs.take j)).typeIn env = .ok found := by
    refine typeIn_callAll_of_ok hh (cs.take j) ?_
    rwa [List.length_take_of_le (Nat.le_of_lt hj)]
  have hsplit : h.callAll cs =
      (call cs[j].site (h.callAll (cs.take j)) cs[j].args).callAll (cs.drop (j + 1)) := by
    conv_lhs => rw [← List.take_append_drop j cs, List.drop_eq_getElem_cons hj]
    exact callAll_append h (cs.take j) (cs[j] :: cs.drop (j + 1))
  rw [hsplit]
  refine typeIn_callAll_of_error ?_ _
  rw [typeIn_call, hinner]
  exact Ty.called_of_not_lambda hlambda cs[j].site.span

end

/-! ## Heads -/

/-- What an expression that is no call has as its type, or why it has none. -/
inductive HeadType (env : Environment) : Expr ι → Except ResolveError Ty → Prop
  | literal (site : Site ι) (value : Literal) : HeadType env (.literal site value) (.ok value.ty)
  | lambda (site : Site ι) (body : List (Stmt ι)) :
    HeadType env (.lambda site body)
      (.error (.unsupported "inferring the type of a lambda" site.span))
  | unbound {site : Site ι} (name : String) (hscope : site.scope = none) :
    HeadType env (.ident site name) (.error (.unresolvedName name site.span .unbound))
  | undeclared {site : Site ι} {name : String} {s : ScopeId} (hscope : site.scope = some s)
    (hname : env.find? s name = none) :
    HeadType env (.ident site name) (.error (.unresolvedName name site.span .undeclared))
  | declaredAs {site : Site ι} {name : String} {s : ScopeId} {d : Declaration}
    (hscope : site.scope = some s) (hname : env.find? s name = some d)
    (hkind : ∀ ty, d.kind ≠ .var ty) :
    HeadType env (.ident site name)
      (.error (.unresolvedName name site.span (.declaredAs d.kind.describe)))
  | var {site : Site ι} {name : String} {s : ScopeId} {d : Declaration} {ty : Ty}
    (hscope : site.scope = some s) (hname : env.find? s name = some d) (hkind : d.kind = .var ty) :
    HeadType env (.ident site name) (.ok ty)

theorem headType_ident (env : Environment) (site : Site ι) (name : String) :
    HeadType env (.ident site name) (env.varType site name) := by
  cases hscope : site.scope with
  | none =>
    rw [Environment.varType_unbound hscope]
    exact .unbound name hscope
  | some s =>
    cases hname : env.find? s name with
    | none =>
      rw [Environment.varType_undeclared hscope hname]
      exact .undeclared hscope hname
    | some d =>
      cases hty : d.varTy? with
      | none =>
        rw [Environment.varType_declaredAs hscope hname hty]
        refine .declaredAs hscope hname fun ty hkind => ?_
        rw [Declaration.varTy?, hkind] at hty
        cases hty
      | some ty =>
        rw [Environment.varType_var hscope hname hty]
        refine .var hscope hname ?_
        rw [Declaration.varTy?] at hty
        split at hty
        · rename_i hkind
          cases hty
          exact hkind
        · cases hty

theorem headType_head (env : Environment) (e : Expr ι) :
    HeadType env e.head (e.head.typeIn env) := by
  cases e with
  | literal site value => exact .literal site value
  | lambda site body => exact .lambda site body
  | ident site name =>
    rw [head, typeIn_ident]
    exact headType_ident env site name
  | call site receiver args => exact headType_head env receiver

/-! ## What does not matter -/

/-- Two expressions with the same spine: calls at the same places around literals of the same type,
around lambdas at the same place, or around the same name at the same place and in the same scope.
Ids, arguments, bodies and all other scopes may differ. -/
inductive SameSpine : Expr ι → Expr κ → Prop
  | literal (site : Site ι) (site' : Site κ) {value value' : Literal} (hty : value.ty = value'.ty) :
    SameSpine (.literal site value) (.literal site' value')
  | lambda {site : Site ι} {site' : Site κ} (hspan : site.span = site'.span)
    (body : List (Stmt ι)) (body' : List (Stmt κ)) :
    SameSpine (.lambda site body) (.lambda site' body')
  | ident {site : Site ι} {site' : Site κ} (hspan : site.span = site'.span)
    (hscope : site.scope = site'.scope) (name : String) :
    SameSpine (.ident site name) (.ident site' name)
  | call {site : Site ι} {site' : Site κ} (hspan : site.span = site'.span) {receiver : Expr ι}
    {receiver' : Expr κ} (hreceiver : SameSpine receiver receiver') (args : List (Expr ι))
    (args' : List (Expr κ)) : SameSpine (.call site receiver args) (.call site' receiver' args')

theorem typeIn_of_sameSpine (env : Environment) {e : Expr ι} {e' : Expr κ}
    (h : e.SameSpine e') : e'.typeIn env = e.typeIn env := by
  induction h with
  | literal site site' hty => rw [typeIn_literal, typeIn_literal, hty]
  | lambda hspan body body' => rw [typeIn_lambda, typeIn_lambda, hspan]
  | ident hspan hscope name =>
    rw [typeIn_ident, typeIn_ident, Environment.varType, Environment.varType, hspan, hscope]
  | call hspan _ args args' ih => rw [typeIn_call, typeIn_call, hspan, ih]

/-! ## The outcome -/

/-- **The outcome is decided by the spine.**  An expression is a head that is no call with calls
around it.  If the head has no type, the outcome is the head's failure.  If it has one and results
can be taken of it as often as there are calls, the outcome is the last of them; if not, it is a
failure at the first call that meets a type that is no lambda type.  Nothing but the spine matters,
and neither do the diagnostics so far. -/
theorem resolve_spine (env : Environment) (e : Expr ι) (ds : List Diagnostic) :
    e = e.head.callAll e.calls ∧
      (∃ outcome, HeadType env e.head outcome ∧
        match outcome with
        | .error err => ((e.resolve env).run ds).1 = .error err
        | .ok t =>
          (t.LambdaFor e.calls.length →
            ∃ r, t.resultAfter e.calls.length = some r ∧ ((e.resolve env).run ds).1 = .ok r) ∧
          (¬t.LambdaFor e.calls.length →
            ∃ j c found, e.calls[j]? = some c ∧ t.LambdaFor j ∧ t.resultAfter j = some found ∧
              found.isLambda = false ∧
              ((e.resolve env).run ds).1 = .error (.notCallable found c.site.span))) ∧
      ∀ (κ : Type) (e' : Expr κ) (ds' : List Diagnostic), e.SameSpine e' →
        ((e'.resolve env).run ds').1 = ((e.resolve env).run ds).1 := by
  have hspine := callAll_head_calls e
  refine ⟨hspine.symm, ⟨e.head.typeIn env, headType_head env e, ?_⟩, fun κ e' ds' h => ?_⟩
  · rw [fst_run_resolve]
    cases hhead : e.head.typeIn env with
    | error err =>
      have herror := typeIn_callAll_of_error hhead e.calls
      rwa [hspine] at herror
    | ok t =>
      refine ⟨fun hlambda => ?_, fun hlambda => ?_⟩
      · obtain ⟨r, hr⟩ := hlambda.exists_resultAfter
        have hok := typeIn_callAll_of_ok hhead e.calls hr
        rw [hspine] at hok
        exact ⟨r, hr, hok⟩
      · obtain ⟨j, hj, hfirst, found, hfound, hstop⟩ := Ty.exists_first_of_not_lambdaFor hlambda
        have hc : e.calls[j]? = some e.calls[j] := List.getElem?_eq_getElem hj
        have herror := typeIn_callAll_of_not_lambda hhead hc hfound hstop
        rw [hspine] at herror
        exact ⟨j, _, found, hc, hfirst, hfound, hstop, herror⟩
  · rw [fst_run_resolve, fst_run_resolve]
    exact typeIn_of_sameSpine env h

end Expr

end UnitCheck
