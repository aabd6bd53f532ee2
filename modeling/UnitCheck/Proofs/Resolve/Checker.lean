import UnitCheck.Proofs.Resolve.Basic

/-!
# Runs of a checker

A checker is asked again and again, for the type of one expression or of many, and collects
diagnostics all the while.  `Checker.attempted` says which of many expressions are resolved: all of
them, or those up to the first failure.  What a checker has recorded follows from the expressions
that it has resolved and from nothing else (`Checker.recording`), so a run of any calls is told by
one list of expressions (`snd_answerAll`), and the answer to a call by the checker that the calls
before it left (`getElem?_answerAll`).
-/

set_option autoImplicit false

namespace UnitCheck

theorem mapM_toOption_eq_some_iff {ε α : Type} {results : List (Except ε α)} {as : List α} :
    results.mapM (fun r => r.toOption) = some as ↔ results = as.map .ok := by
  induction results generalizing as with
  | nil => cases as <;> simp
  | cons r results ih =>
    rw [List.mapM_cons]
    cases r with
    | error e =>
      have hnone : (Except.error e : Except ε α).toOption = none := rfl
      cases as <;> simp [hnone]
    | ok a =>
      have hsome : (Except.ok a : Except ε α).toOption = some a := rfl
      cases as with
      | nil => simp [hsome, Option.bind_eq_some_iff]
      | cons b bs => simpa [hsome, Option.bind_eq_some_iff, ih] using and_comm

namespace Checker

variable {ι : Type} {c : Checker}

/-! ## Attempts -/

/-- Those of the given expressions that are resolved if all of them are asked for. -/
def attempted (c : Checker) (es : List (Expr ι)) : List (Expr ι) :=
  if c.failFast then es.take (es.findIdx (fun e => !(e.typeIn c.env).isOk) + 1) else es

@[simp] theorem attempted_nil (c : Checker) : c.attempted ([] : List (Expr ι)) = [] := by
  simp [attempted]

theorem attempted_cons_of_ok {e : Expr ι} {ty : Ty} (he : e.typeIn c.env = .ok ty)
    (es : List (Expr ι)) : c.attempted (e :: es) = e :: c.attempted es := by
  rw [attempted, attempted, List.findIdx_cons, he]
  split
  · rfl
  · rfl

theorem attempted_cons_of_error {e : Expr ι} {err : ResolveError}
    (he : e.typeIn c.env = .error err) (es : List (Expr ι)) :
    c.attempted (e :: es) = if c.failFast then [e] else e :: c.attempted es := by
  rw [attempted, attempted, List.findIdx_cons, he]
  split
  · rfl
  · rfl

/-- If all expressions have a type, all are resolved. -/
theorem attempted_of_ok {es : List (Expr ι)} {types : List Ty}
    (h : es.map (Expr.typeIn c.env) = types.map .ok) : c.attempted es = es := by
  induction es generalizing types with
  | nil => exact attempted_nil c
  | cons e es ih =>
    cases types with
    | nil => cases h
    | cons ty types =>
      rw [List.map_cons, List.map_cons, List.cons.injEq] at h
      rw [attempted_cons_of_ok h.1, ih h.2]

/-- If some expression has no type, one such is resolved. -/
theorem exists_mem_attempted {es : List (Expr ι)} {e : Expr ι} {err : ResolveError} (he : e ∈ es)
    (herr : e.typeIn c.env = .error err) :
    ∃ e' ∈ c.attempted es, ∃ err', e'.typeIn c.env = .error err' := by
  induction es with
  | nil => cases he
  | cons d es ih =>
    cases hd : d.typeIn c.env with
    | error err' =>
      refine ⟨d, ?_, err', hd⟩
      rw [attempted_cons_of_error hd]
      split <;> simp
    | ok ty =>
      have hmem : e ∈ es := by
        rcases List.mem_cons.1 he with rfl | hmem
        · rw [hd] at herr
          cases herr
        · exact hmem
      obtain ⟨e', he', hfails⟩ := ih hmem
      refine ⟨e', ?_, hfails⟩
      rw [attempted_cons_of_ok hd]
      exact List.mem_cons_of_mem d he'

/-! ## What is recorded -/

/-- The checker that has resolved some more expressions. -/
def recording (c : Checker) (es : List (Expr ι)) : Checker :=
  { c with diagnostics := c.diagnostics ++ es.flatMap fun e => Resolving.recorded (e.typeIn c.env) }

theorem recording_nil (c : Checker) : c.recording ([] : List (Expr ι)) = c := by
  rw [recording, List.flatMap_nil, List.append_nil]

theorem recording_append (c : Checker) (es es' : List (Expr ι)) :
    c.recording (es ++ es') = (c.recording es).recording es' := by
  rw [recording, recording, recording, List.flatMap_append, List.append_assoc]

theorem recording_of_ok {es : List (Expr ι)} {types : List Ty}
    (h : es.map (Expr.typeIn c.env) = types.map .ok) : c.recording es = c := by
  have hnone : (es.flatMap fun e => Resolving.recorded (e.typeIn c.env)) = [] := by
    have hmap := congrArg (List.flatMap Resolving.recorded) h
    rw [List.flatMap_map, List.flatMap_map] at hmap
    rw [hmap, List.flatMap_eq_nil_iff]
    exact fun _ _ => rfl
  rw [recording, hnone, List.append_nil]

theorem exprType_eq (c : Checker) (e : Expr ι) :
    c.exprType e = (e.typeIn c.env, c.recording [e]) := by
  rw [exprType, Expr.records_resolve c.env e c.diagnostics, recording, List.flatMap_singleton]

/-- **Resolving many expressions** has the outcomes of those that are attempted. -/
theorem resolveAll_eq (c : Checker) (es : List (Expr ι)) :
    c.resolveAll es =
      ((c.attempted es).map (Expr.typeIn c.env), c.recording (c.attempted es)) := by
  induction es generalizing c with
  | nil => rw [resolveAll, attempted_nil, recording_nil, List.map_nil]
  | cons e es ih =>
    -- the checker goes on with more diagnostics, which have no say in what is attempted
    have hrest : (c.recording [e]).resolveAll es =
        ((c.attempted es).map (Expr.typeIn c.env), c.recording (e :: c.attempted es)) := by
      rw [ih]
      exact congrArg (Prod.mk _) (recording_append c [e] (c.attempted es)).symm
    rw [resolveAll, exprType_eq]
    cases he : e.typeIn c.env with
    | ok ty =>
      rw [attempted_cons_of_ok he, List.map_cons, he]
      simp only [hrest]
    | error err =>
      rw [attempted_cons_of_error he]
      simp only [hrest]
      split
      · rename_i hfast
        rw [if_pos (show c.failFast = true from hfast), List.map_singleton, he]
      · rename_i hfast
        rw [if_neg (show ¬c.failFast = true from hfast), List.map_cons, he]

theorem checkExprs_of_ok {es : List (Expr ι)} {types : List Ty}
    (h : es.map (Expr.typeIn c.env) = types.map .ok) : c.checkExprs es = (.ok types, c) := by
  rw [checkExprs, resolveAll_eq, attempted_of_ok h, recording_of_ok h]
  simp only [mapM_toOption_eq_some_iff.2 h]

theorem checkExprs_of_error {es : List (Expr ι)} {e : Expr ι} {err : ResolveError} (he : e ∈ es)
    (herr : e.typeIn c.env = .error err) :
    c.checkExprs es =
      (.error (c.recording (c.attempted es)).diagnostics, c.recording (c.attempted es)) := by
  have hnone : ((c.attempted es).map (Expr.typeIn c.env)).mapM (fun r => r.toOption) = none := by
    rw [Option.eq_none_iff_forall_ne_some]
    intro types htypes
    obtain ⟨e', he', err', herr'⟩ := exists_mem_attempted he herr
    have hmem := List.mem_map_of_mem (f := Expr.typeIn c.env) he'
    rw [mapM_toOption_eq_some_iff.1 htypes, herr'] at hmem
    simp at hmem
  rw [checkExprs, resolveAll_eq]
  simp only [hnone]

/-- Either all expressions have types, or one of them has none. -/
theorem exists_types_or_error (env : Environment) (es : List (Expr ι)) :
    (∃ types : List Ty, es.map (Expr.typeIn env) = types.map .ok) ∨
      ∃ e ∈ es, ∃ err, e.typeIn env = .error err := by
  induction es with
  | nil => exact .inl ⟨[], rfl⟩
  | cons e es ih =>
    cases he : e.typeIn env with
    | error err => exact .inr ⟨e, List.mem_cons_self, err, he⟩
    | ok ty =>
      rcases ih with ⟨types, htypes⟩ | ⟨e', he', hfails⟩
      · exact .inl ⟨ty :: types, by rw [List.map_cons, List.map_cons, he, htypes]⟩
      · exact .inr ⟨e', List.mem_cons_of_mem e he', hfails⟩

/-! ## Calls -/

/-- A call of a checker. -/
inductive Call (ι : Type) where
  | exprType (e : Expr ι)
  | resolveAll (es : List (Expr ι))
  | checkExprs (es : List (Expr ι))

/-- The answer to a call. -/
inductive Answer where
  | result (r : Except ResolveError Ty)
  | results (rs : List (Except ResolveError Ty))
  | types (r : Except (List Diagnostic) (List Ty))

def answer (c : Checker) : Call ι → Answer × Checker
  | .exprType e => (c.exprType e).map .result id
  | .resolveAll es => (c.resolveAll es).map .results id
  | .checkExprs es => (c.checkExprs es).map .types id

/-- Calls made one after the other, on one checker. -/
def answerAll (c : Checker) : List (Call ι) → List Answer × Checker
  | [] => ([], c)
  | call :: calls =>
    let (a, c) := c.answer call
    let (as, c) := c.answerAll calls
    (a :: as, c)

/-- The expressions that are resolved for a call. -/
def attemptedBy (c : Checker) : Call ι → List (Expr ι)
  | .exprType e => [e]
  | .resolveAll es => c.attempted es
  | .checkExprs es => c.attempted es

/-- What the answer to a call must be, with the diagnostics there are after it. -/
inductive Answers (c : Checker) (bag : List Diagnostic) : Call ι → Answer → Prop
  | exprType (e : Expr ι) : Answers c bag (.exprType e) (.result (e.typeIn c.env))
  | resolveAll (es : List (Expr ι)) :
    Answers c bag (.resolveAll es) (.results ((c.attempted es).map (Expr.typeIn c.env)))
  | types {es : List (Expr ι)} {types : List Ty}
    (h : es.map (Expr.typeIn c.env) = types.map .ok) :
    Answers c bag (.checkExprs es) (.types (.ok types))
  | failed {es : List (Expr ι)} {e : Expr ι} {err : ResolveError} (he : e ∈ es)
    (herr : e.typeIn c.env = .error err) :
    Answers c bag (.checkExprs es) (.types (.error bag))

theorem snd_answer (c : Checker) (call : Call ι) :
    (c.answer call).2 = c.recording (c.attemptedBy call) := by
  cases call with
  | exprType e => rw [answer, exprType_eq]; rfl
  | resolveAll es => rw [answer, resolveAll_eq]; rfl
  | checkExprs es =>
    rw [answer]
    rcases exists_types_or_error c.env es with ⟨types, h⟩ | ⟨e, he, err, herr⟩
    · rw [checkExprs_of_ok h, attemptedBy, attempted_of_ok h, recording_of_ok h]
      rfl
    · rw [checkExprs_of_error he herr]
      rfl

/-- The answer to a call depends on what was resolved before only by the diagnostics. -/
theorem answers_answer (c : Checker) (earlier : List (Expr ι)) (call : Call ι) :
    Answers c (c.recording (earlier ++ c.attemptedBy call)).diagnostics call
      ((c.recording earlier).answer call).1 := by
  rw [recording_append]
  cases call with
  | exprType e =>
    rw [answer, exprType_eq]
    exact .exprType e
  | resolveAll es =>
    rw [answer, resolveAll_eq]
    exact .resolveAll es
  | checkExprs es =>
    rw [answer]
    rcases exists_types_or_error c.env es with ⟨types, h⟩ | ⟨e, he, err, herr⟩
    · have hchecked := checkExprs_of_ok (c := c.recording earlier) h
      rw [hchecked]
      exact .types h
    · have hchecked := checkExprs_of_error (c := c.recording earlier) he herr
      rw [hchecked]
      exact .failed he herr

/-! ## Runs -/

theorem snd_answerAll (c : Checker) (calls : List (Call ι)) :
    (c.answerAll calls).2 = c.recording (calls.flatMap c.attemptedBy) := by
  induction calls generalizing c with
  | nil => rw [answerAll, List.flatMap_nil, recording_nil]
  | cons call calls ih =>
    rw [answerAll, List.flatMap_cons, recording_append, ← snd_answer, ih, snd_answer]
    rfl

theorem length_answerAll (c : Checker) (calls : List (Call ι)) :
    (c.answerAll calls).1.length = calls.length := by
  induction calls generalizing c with
  | nil => rfl
  | cons call calls ih => rw [answerAll, List.length_cons, List.length_cons, ih]

/-- A call is answered by the checker that the calls before it left. -/
theorem getElem?_answerAll (c : Checker) {calls : List (Call ι)} {i : Nat} {call : Call ι}
    (hcall : calls[i]? = some call) :
    (c.answerAll calls).1[i]? =
      some ((c.recording ((calls.take i).flatMap c.attemptedBy)).answer call).1 := by
  induction calls generalizing c i with
  | nil => cases hcall
  | cons first calls ih =>
    rw [answerAll]
    cases i with
    | zero =>
      cases hcall
      rw [List.take_zero, List.flatMap_nil, recording_nil]
      rfl
    | succ i =>
      rw [List.take_succ_cons, List.flatMap_cons, recording_append, ← snd_answer,
        List.getElem?_cons_succ, ih _ hcall, snd_answer]
      rfl

/-- **What a checker answers and what it records stay in step.**  After any calls there are the
diagnostics of before, as they were, and behind them one for each expression that was resolved and
has no type, in the order of the calls: the diagnostic of that failure, which is an error with its
code and its span.  A call for one expression or for many returns the outcomes of those that are
resolved for it.  A call to check expressions returns their types if all have one, and otherwise all
diagnostics there are after it. -/
theorem answerAll_diagnostics (c : Checker) (calls : List (Call ι)) :
    let bag (made : List (Call ι)) : List Diagnostic :=
      c.diagnostics ++
        (made.flatMap c.attemptedBy).flatMap fun e => Resolving.recorded (e.typeIn c.env)
    (c.answerAll calls).2 = { c with diagnostics := bag calls } ∧
      (c.answerAll calls).1.length = calls.length ∧
      (∀ i call, calls[i]? = some call → ∃ a, (c.answerAll calls).1[i]? = some a ∧
        c.Answers (bag (calls.take (i + 1))) call a) ∧
      ∀ err : ResolveError, err.toDiagnostic.isError = true ∧
        err.toDiagnostic.code = err.code ∧ err.toDiagnostic.span = err.span := by
  intro bag
  refine ⟨snd_answerAll c calls, length_answerAll c calls, fun i call hcall => ?_,
    fun err => ⟨rfl, rfl, rfl⟩⟩
  refine ⟨_, getElem?_answerAll c hcall, ?_⟩
  have hmade : (calls.take (i + 1)).flatMap c.attemptedBy =
      (calls.take i).flatMap c.attemptedBy ++ c.attemptedBy call := by
    rw [List.take_add_one, hcall, Option.toList_some, List.flatMap_append, List.flatMap_singleton]
  have hbag : bag (calls.take (i + 1)) =
      (c.recording ((calls.take (i + 1)).flatMap c.attemptedBy)).diagnostics := rfl
  rw [hbag, hmade]
  exact answers_answer c _ call

end Checker

end UnitCheck
