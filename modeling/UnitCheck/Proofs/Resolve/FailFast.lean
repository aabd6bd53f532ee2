import UnitCheck.Proofs.Resolve.Checker

/-!
# Stopping at the first failure

A checker that stops at the first failure and one that goes on are asked for the same expressions.
The one that stops attempts a part of the list from its beginning, and what it records is a part of
what the other one records, again from its beginning: the first failure is where both parts end
(`Checker.flatMap_recorded_attempted`).  So stopping loses results and changes none
(`Checker.resolveAll_failFast`).
-/

set_option autoImplicit false

namespace UnitCheck

namespace Checker

variable {ι : Type} {c : Checker}

/-- The outcome for an expression does not depend on the checker that is asked. -/
theorem fst_exprType (c : Checker) (e : Expr ι) : (c.exprType e).1 = e.typeIn c.env := by
  rw [exprType_eq]

theorem attempted_of_not_failFast (h : c.failFast = false) (es : List (Expr ι)) :
    c.attempted es = es := by
  rw [attempted, h]
  rfl

theorem attempted_of_failFast (h : c.failFast = true) (es : List (Expr ι)) :
    c.attempted es = es.take (es.findIdx (fun e => !(e.typeIn c.env).isOk) + 1) := by
  rw [attempted, h]
  rfl

/-- **Of all failures that there are, stopping records the first.** -/
theorem flatMap_recorded_attempted (h : c.failFast = true) (es : List (Expr ι)) :
    (c.attempted es).flatMap (fun e => Resolving.recorded (e.typeIn c.env)) =
      (es.flatMap fun e => Resolving.recorded (e.typeIn c.env)).take 1 := by
  induction es with
  | nil => rw [attempted_nil, List.flatMap_nil, List.take_nil]
  | cons e es ih =>
    cases he : e.typeIn c.env with
    | ok ty =>
      -- an expression with a type is attempted and records nothing
      have hnone : Resolving.recorded (e.typeIn c.env) = [] := by rw [he]; rfl
      rw [attempted_cons_of_ok he, List.flatMap_cons, List.flatMap_cons, hnone, List.nil_append,
        List.nil_append, ih]
    | error err =>
      have hone : Resolving.recorded (e.typeIn c.env) = [err.toDiagnostic] := by rw [he]; rfl
      rw [attempted_cons_of_error he, if_pos h, List.flatMap_singleton, List.flatMap_cons, hone]
      rfl

/-- There is something to record exactly if some expression fails. -/
theorem flatMap_recorded_eq_nil_iff (env : Environment) (es : List (Expr ι)) :
    (es.flatMap fun e => Resolving.recorded (e.typeIn env)) = [] ↔
      ∀ e ∈ es, (e.typeIn env).isOk = true := by
  rw [List.flatMap_eq_nil_iff]
  refine forall₂_congr fun e _ => ?_
  cases e.typeIn env with
  | ok ty => exact ⟨fun _ => rfl, fun _ => rfl⟩
  | error err =>
    constructor
    · intro h
      cases h
    · intro h
      cases h

/-- **Stopping at the first failure cuts off what is behind it.**  Without stopping there is one
result for each expression, the one that the expression has alone on a new checker.  With stopping
there are the same results up to the first failure, which is included, and of the diagnostics that
the other run adds to those there were before only the first is added.  If nothing fails, both runs
have the same results and add nothing. -/
theorem resolveAll_failFast (env : Environment) (bag : List Diagnostic) (es : List (Expr ι)) :
    let alone (e : Expr ι) : Except ResolveError Ty := (exprType { env := env } e).1
    let all := resolveAll { env := env, failFast := false, diagnostics := bag } es
    let fast := resolveAll { env := env, failFast := true, diagnostics := bag } es
    all.1 = es.map alone ∧
      fast.1 = all.1.take (es.findIdx (fun e => !(alone e).isOk) + 1) ∧
      ∃ added : List Diagnostic,
        all.2 = { env := env, failFast := false, diagnostics := bag ++ added } ∧
        fast.2 = { env := env, failFast := true, diagnostics := bag ++ added.take 1 } ∧
        ((∃ e ∈ es, (alone e).isOk = false) → added ≠ []) ∧
        ((∀ e ∈ es, (alone e).isOk = true) → added = [] ∧ fast.1 = all.1) := by
  intro alone all fast
  have halone : alone = Expr.typeIn env := funext fun e => fst_exprType { env := env } e
  have hall : all = (es.map (Expr.typeIn env), recording ⟨env, false, bag⟩ es) := by
    rw [show all = _ from resolveAll_eq _ es, attempted_of_not_failFast rfl]
  have hfast : fast = ((attempted ⟨env, true, bag⟩ es).map (Expr.typeIn env),
      recording ⟨env, true, bag⟩ (attempted ⟨env, true, bag⟩ es)) := resolveAll_eq _ es
  have hcut : fast.1 = all.1.take (es.findIdx (fun e => !(e.typeIn env).isOk) + 1) := by
    rw [hfast, hall, attempted_of_failFast rfl, List.map_take]
  rw [halone]
  refine ⟨by rw [hall], hcut, es.flatMap fun e => Resolving.recorded (e.typeIn env), ?_, ?_, ?_,
    fun hok => ⟨(flatMap_recorded_eq_nil_iff env es).2 hok, ?_⟩⟩
  · rw [hall, recording]
  · rw [hfast, recording, flatMap_recorded_attempted rfl]
  · rintro ⟨e, he, hfails⟩ hnone
    rw [(flatMap_recorded_eq_nil_iff env es).1 hnone e he] at hfails
    cases hfails
  · -- no position is the first failure, so nothing is cut off
    have hlength : es.findIdx (fun e => !(e.typeIn env).isOk) = es.length := by
      rw [List.findIdx_eq_length]
      intro e he
      rw [hok e he]
      rfl
    rw [hcut, hlength, hall]
    exact List.take_of_length_le (by rw [List.length_map]; omega)

end Checker

end UnitCheck
