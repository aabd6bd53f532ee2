import UnitCheck.Proofs.Expr.Within
import UnitCheck.Unit.Basic

/-!
# What is read is unbound

No document can bind a node to a scope: `scope` is no field of an expression, so a member of that
name is passed over like any other that is not known.  `CompilationUnit.unbound_of_parse` says so of
all nodes of all expressions of a unit, whatever its text is.

The argument follows the readers.  A reader of a list, an option or a field gives nothing but what
the reader of the parts gives, and the parts of a tree are read by readers with less room
(`decodesUnbound`).
-/

set_option autoImplicit false

namespace UnitCheck

/-! ## What readers of parts give -/

namespace Json

section

variable {α : Type} {read : Json → Option α} {P : α → Prop}
  (hread : ∀ (j : Json) (a : α), read j = some a → P a)

include hread

theorem forall_of_mapM {items : List Json} {as : List α} (h : items.mapM read = some as) :
    ∀ a ∈ as, P a := by
  induction items generalizing as with
  | nil =>
    cases h
    simp
  | cons item items ih =>
    rw [List.mapM_cons] at h
    obtain ⟨first, hfirst, h⟩ := Option.bind_eq_some_iff.1 h
    obtain ⟨rest, hrest, h⟩ := Option.bind_eq_some_iff.1 h
    cases h
    exact List.forall_mem_cons.2 ⟨hread item first hfirst, ih hrest⟩

theorem forall_of_asList {j : Json} {as : List α} (h : asList read j = some as) :
    ∀ a ∈ as, P a := by
  cases j with
  | arr items => exact forall_of_mapM hread h
  | null | bool | nat | real | str | obj | invalid => cases h

theorem forall_of_orNull {j : Json} {o : Option α} (h : orNull read j = some o) :
    ∀ a ∈ o.toList, P a := by
  unfold orNull at h
  split at h
  · cases h
    simp
  · obtain ⟨a, ha, rfl⟩ := Option.map_eq_some_iff.1 h
    simpa using hread j a ha

theorem of_required {field : Option Json} {a : α} (h : required read field = some a) : P a := by
  obtain ⟨j, -, hj⟩ := Option.bind_eq_some_iff.1 h
  exact hread j a hj

theorem of_withDefault {default : α} (hdefault : P default) {field : Option Json} {a : α}
    (h : withDefault default read field = some a) : P a := by
  cases field with
  | none =>
    cases h
    exact hdefault
  | some j => exact hread j a h

end

end Json

/-! ## Trees -/

theorem Site.scope_of_decode {id span : Option Json} {site : Site (Option NodeId)}
    (h : Site.decode id span = some site) : site.scope = none := by
  obtain ⟨i, -, h⟩ := Option.bind_eq_some_iff.1 h
  obtain ⟨s, -, h⟩ := Option.bind_eq_some_iff.1 h
  cases h
  rfl

/-- What is read with this much room is unbound. -/
structure DecodesUnbound (room : Nat) : Prop where
  expr : ∀ (inner : Bool) (j : Json) (e : Expr (Option NodeId)),
    Expr.decode room inner j = some e → e.Unbound
  stmt : ∀ (inner : Bool) (j : Json) (stmt : Stmt (Option NodeId)),
    Stmt.decode room inner j = some stmt → ∀ e ∈ stmt.exprs, e.Unbound

namespace DecodesUnbound

variable {room : Nat}

theorem succ_expr (ih : DecodesUnbound room) (inner : Bool) (j : Json) (e : Expr (Option NodeId))
    (h : Expr.decode (room + 1) inner j = some e) : e.Unbound := by
  rw [Expr.decode] at h
  obtain ⟨⟨tag, body⟩, -, h⟩ := Option.bind_eq_some_iff.1 h
  obtain ⟨form, -, h⟩ := Option.bind_eq_some_iff.1 h
  cases form with
  | literal =>
    obtain ⟨fields, -, h⟩ := Option.bind_eq_some_iff.1 h
    split at h
    · obtain ⟨site, hsite, h⟩ := Option.bind_eq_some_iff.1 h
      obtain ⟨value, -, h⟩ := Option.bind_eq_some_iff.1 h
      cases h
      exact Expr.unbound_literal (Site.scope_of_decode hsite) value
    · cases h
  | lambda =>
    obtain ⟨fields, -, h⟩ := Option.bind_eq_some_iff.1 h
    split at h
    · obtain ⟨site, hsite, h⟩ := Option.bind_eq_some_iff.1 h
      obtain ⟨stmts, hstmts, h⟩ := Option.bind_eq_some_iff.1 h
      cases h
      refine Expr.unbound_lambda (Site.scope_of_decode hsite) ?_
      exact Json.of_required (fun _ _ => Json.forall_of_asList (ih.stmt true)) hstmts
    · cases h
  | ident =>
    obtain ⟨fields, -, h⟩ := Option.bind_eq_some_iff.1 h
    split at h
    · obtain ⟨site, hsite, h⟩ := Option.bind_eq_some_iff.1 h
      obtain ⟨name, -, h⟩ := Option.bind_eq_some_iff.1 h
      cases h
      exact Expr.unbound_ident (Site.scope_of_decode hsite) name
    · cases h
  | call =>
    obtain ⟨fields, -, h⟩ := Option.bind_eq_some_iff.1 h
    split at h
    · obtain ⟨site, hsite, h⟩ := Option.bind_eq_some_iff.1 h
      obtain ⟨receiver, hreceiver, h⟩ := Option.bind_eq_some_iff.1 h
      obtain ⟨args, hargs, h⟩ := Option.bind_eq_some_iff.1 h
      cases h
      refine Expr.unbound_call (Site.scope_of_decode hsite) ?_ ?_
      · exact Json.of_required (ih.expr true) hreceiver
      · exact Json.of_withDefault (fun _ _ => Json.forall_of_asList (ih.expr true)) (by simp) hargs
    · cases h

theorem succ_stmt (ih : DecodesUnbound room) (inner : Bool) (j : Json)
    (stmt : Stmt (Option NodeId)) (h : Stmt.decode (room + 1) inner j = some stmt) :
    ∀ e ∈ stmt.exprs, e.Unbound := by
  rw [Stmt.decode] at h
  obtain ⟨⟨tag, body⟩, -, h⟩ := Option.bind_eq_some_iff.1 h
  obtain ⟨form, -, h⟩ := Option.bind_eq_some_iff.1 h
  cases form with
  | bind =>
    obtain ⟨fields, -, h⟩ := Option.bind_eq_some_iff.1 h
    split at h
    · obtain ⟨id, -, h⟩ := Option.bind_eq_some_iff.1 h
      obtain ⟨span, -, h⟩ := Option.bind_eq_some_iff.1 h
      obtain ⟨name, -, h⟩ := Option.bind_eq_some_iff.1 h
      obtain ⟨ty, -, h⟩ := Option.bind_eq_some_iff.1 h
      obtain ⟨value, hvalue, h⟩ := Option.bind_eq_some_iff.1 h
      cases h
      exact Json.of_withDefault (fun _ _ => Json.forall_of_orNull (ih.expr true)) (by simp) hvalue
    · cases h
  | eval =>
    obtain ⟨fields, -, h⟩ := Option.bind_eq_some_iff.1 h
    split at h
    · obtain ⟨id, -, h⟩ := Option.bind_eq_some_iff.1 h
      obtain ⟨span, -, h⟩ := Option.bind_eq_some_iff.1 h
      obtain ⟨expr, hexpr, h⟩ := Option.bind_eq_some_iff.1 h
      cases h
      simpa [Stmt.exprs] using Json.of_required (ih.expr true) hexpr
    · cases h
  | ret =>
    obtain ⟨fields, -, h⟩ := Option.bind_eq_some_iff.1 h
    split at h
    · obtain ⟨id, -, h⟩ := Option.bind_eq_some_iff.1 h
      obtain ⟨span, -, h⟩ := Option.bind_eq_some_iff.1 h
      obtain ⟨value, hvalue, h⟩ := Option.bind_eq_some_iff.1 h
      cases h
      exact Json.of_withDefault (fun _ _ => Json.forall_of_orNull (ih.expr true)) (by simp) hvalue
    · cases h

end DecodesUnbound

theorem decodesUnbound (room : Nat) : DecodesUnbound room := by
  induction room with
  | zero =>
    refine ⟨fun inner j e h => ?_, fun inner j stmt h => ?_⟩
    · rw [Expr.decode] at h
      cases h
    · rw [Stmt.decode] at h
      cases h
  | succ room ih => exact ⟨ih.succ_expr, ih.succ_stmt⟩

theorem Expr.unbound_of_ofJson? {room : Nat} {j : Json} {e : Expr (Option NodeId)}
    (h : Expr.ofJson? room j = some e) : e.Unbound := by
  rw [Expr.ofJson?] at h
  split at h
  · exact (decodesUnbound room).expr false j e h
  · cases h

/-! ## Units -/

theorem Entry.unbound_of_ofJson? {room : Nat} (j : Json) (e : Entry (Option NodeId))
    (h : Entry.ofJson? room j = some e) : e.expr.Unbound := by
  obtain ⟨fields, -, h⟩ := Option.bind_eq_some_iff.1 h
  split at h
  · obtain ⟨scope, -, h⟩ := Option.bind_eq_some_iff.1 h
    obtain ⟨expr, hexpr, h⟩ := Option.bind_eq_some_iff.1 h
    cases h
    exact Json.of_required (fun _ _ => Expr.unbound_of_ofJson?) hexpr
  · cases h

namespace CompilationUnit

variable {u : CompilationUnit (Option NodeId)}

theorem unbound_of_ofJson? {room : Nat} {j : Json} (h : ofJson? room j = some u) :
    ∀ e ∈ u.entries, e.expr.Unbound := by
  obtain ⟨fields, -, h⟩ := Option.bind_eq_some_iff.1 h
  split at h
  · obtain ⟨file, -, h⟩ := Option.bind_eq_some_iff.1 h
    obtain ⟨source, -, h⟩ := Option.bind_eq_some_iff.1 h
    obtain ⟨declarations, -, h⟩ := Option.bind_eq_some_iff.1 h
    obtain ⟨scopes, -, h⟩ := Option.bind_eq_some_iff.1 h
    obtain ⟨entries, hentries, h⟩ := Option.bind_eq_some_iff.1 h
    cases h
    exact Json.of_withDefault (fun _ _ => Json.forall_of_asList Entry.unbound_of_ofJson?) (by simp)
      hentries
  · cases h

/-- **Whatever is read, no node of it is bound.** -/
theorem unbound_of_parse {text path : String} (h : parse text path = some u) :
    ∀ e ∈ u.entries, e.expr.Unbound := by
  obtain ⟨v, hv, rfl⟩ := Option.map_eq_some_iff.1 h
  obtain ⟨j, -, hj⟩ := Option.bind_eq_some_iff.1 hv
  have hentries : (inFile path v).entries = v.entries := by
    rw [inFile]
    split <;> rfl
  rw [hentries]
  exact unbound_of_ofJson? hj

end CompilationUnit

end UnitCheck
