import Mathlib.Data.List.Forall2
import UnitCheck.Expr.Json
import UnitCheck.Expr.Numbering

/-!
# Changing ids and scopes

`Expr.map` and `Stmt.map` change the ids and scopes of a tree and keep all the rest.  Doing it twice
is doing it once (`Expr.map_map`), binding changes nothing but missing scopes
(`Expr.binds_bind`), scopes are no part of what is printed for a tree (`Expr.toJson_map`), and a
tree that has all its ids is numbered as it is (`Expr.number_map_some`).

Each fact is proved for expressions, statements and the lists and options of them at once, in the
order in which `Expr.map` itself goes through the tree.
-/

set_option autoImplicit false

namespace UnitCheck

section

variable {ι κ μ : Type}

/-! ## Lists and options -/

theorem Expr.mapAll_eq_map (f : ι → κ) (g : Option ScopeId → Option ScopeId)
    (es : List (Expr ι)) : Expr.mapAll f g es = es.map (Expr.map f g) := by
  induction es with
  | nil => rfl
  | cons e es ih => rw [Expr.mapAll, ih, List.map_cons]

theorem Stmt.mapAll_eq_map (f : ι → κ) (g : Option ScopeId → Option ScopeId)
    (ss : List (Stmt ι)) : Stmt.mapAll f g ss = ss.map (Stmt.map f g) := by
  induction ss with
  | nil => rfl
  | cons s ss ih => rw [Stmt.mapAll, ih, List.map_cons]

theorem Expr.mapOption_eq_map (f : ι → κ) (g : Option ScopeId → Option ScopeId)
    (o : Option (Expr ι)) : Expr.mapOption f g o = o.map (Expr.map f g) := by
  cases o <;> rfl

/-! ## Changing twice -/

section

variable (f : ι → κ) (g : Option ScopeId → Option ScopeId) (f' : κ → μ)
  (g' : Option ScopeId → Option ScopeId)

mutual

theorem Expr.map_map : ∀ e : Expr ι,
    (e.map f g).map f' g' = e.map (fun i => f' (f i)) (fun s => g' (g s))
  | .literal _ _ => rfl
  | .lambda _ body => by rw [Expr.map, Expr.map, Expr.map, Stmt.mapAll_mapAll body]; rfl
  | .ident _ _ => rfl
  | .call _ receiver args => by
    rw [Expr.map, Expr.map, Expr.map, Expr.map_map receiver, Expr.mapAll_mapAll args]
    rfl

theorem Expr.mapAll_mapAll : ∀ es : List (Expr ι),
    Expr.mapAll f' g' (Expr.mapAll f g es) =
      Expr.mapAll (fun i => f' (f i)) (fun s => g' (g s)) es
  | [] => rfl
  | e :: es => by
    rw [Expr.mapAll, Expr.mapAll, Expr.mapAll, Expr.map_map e, Expr.mapAll_mapAll es]

theorem Expr.mapOption_mapOption : ∀ o : Option (Expr ι),
    Expr.mapOption f' g' (Expr.mapOption f g o) =
      Expr.mapOption (fun i => f' (f i)) (fun s => g' (g s)) o
  | none => rfl
  | some e => by rw [Expr.mapOption, Expr.mapOption, Expr.mapOption, Expr.map_map e]

theorem Stmt.map_map : ∀ s : Stmt ι,
    (s.map f g).map f' g' = s.map (fun i => f' (f i)) (fun s => g' (g s))
  | .bind _ _ _ _ value => by
    rw [Stmt.map, Stmt.map, Stmt.map, Expr.mapOption_mapOption value]
  | .eval _ _ expr => by rw [Stmt.map, Stmt.map, Stmt.map, Expr.map_map expr]
  | .ret _ _ value => by rw [Stmt.map, Stmt.map, Stmt.map, Expr.mapOption_mapOption value]

theorem Stmt.mapAll_mapAll : ∀ ss : List (Stmt ι),
    Stmt.mapAll f' g' (Stmt.mapAll f g ss) =
      Stmt.mapAll (fun i => f' (f i)) (fun s => g' (g s)) ss
  | [] => rfl
  | s :: ss => by
    rw [Stmt.mapAll, Stmt.mapAll, Stmt.mapAll, Stmt.map_map s, Stmt.mapAll_mapAll ss]

end

end

/-! ## Trees without scopes -/

namespace Expr

/-- The same expression with no node bound to a scope. -/
def unbound (e : Expr ι) : Expr ι := e.map (fun i => i) fun _ => none

theorem mapId_unbound (f : ι → κ) (e : Expr ι) : e.unbound.mapId f = e.map f fun _ => none := by
  rw [mapId, unbound, map_map]

end Expr

end

/-! ## Binding -/

section

variable {ι : Type}

/-- A node that keeps its scope if it has one, and has the given scope otherwise. -/
def Site.inScope (s : ScopeId) (site : Site ι) : Site ι :=
  { site with scope := some (site.scope.getD s) }

mutual

/-- Two expressions that differ only in that the nodes of the first without a scope have the given
one in the second. -/
inductive Expr.Binds (s : ScopeId) : Expr ι → Expr ι → Prop
  | literal (site : Site ι) (value : Literal) :
    Expr.Binds s (.literal site value) (.literal (site.inScope s) value)
  | lambda (site : Site ι) {body body' : List (Stmt ι)}
    (hbody : List.Forall₂ (Stmt.Binds s) body body') :
    Expr.Binds s (.lambda site body) (.lambda (site.inScope s) body')
  | ident (site : Site ι) (name : String) :
    Expr.Binds s (.ident site name) (.ident (site.inScope s) name)
  | call (site : Site ι) {receiver receiver' : Expr ι} {args args' : List (Expr ι)}
    (hreceiver : Expr.Binds s receiver receiver')
    (hargs : List.Forall₂ (Expr.Binds s) args args') :
    Expr.Binds s (.call site receiver args) (.call (site.inScope s) receiver' args')

/-- Statements have no scope of their own; the expressions in them have. -/
inductive Stmt.Binds (s : ScopeId) : Stmt ι → Stmt ι → Prop
  | bind (id : ι) (span : Span) (name : String) (ty : Option Ty) {value value' : Option (Expr ι)}
    (hvalue : Option.Rel (Expr.Binds s) value value') :
    Stmt.Binds s (.bind id span name ty value) (.bind id span name ty value')
  | eval (id : ι) (span : Span) {expr expr' : Expr ι} (hexpr : Expr.Binds s expr expr') :
    Stmt.Binds s (.eval id span expr) (.eval id span expr')
  | ret (id : ι) (span : Span) {value value' : Option (Expr ι)}
    (hvalue : Option.Rel (Expr.Binds s) value value') :
    Stmt.Binds s (.ret id span value) (.ret id span value')

end

variable (s : ScopeId)

mutual

theorem Expr.binds_bind : ∀ e : Expr ι, e.Binds s (e.bind s)
  | .literal site value => .literal site value
  | .lambda site body => .lambda site (Stmt.binds_mapAll body)
  | .ident site name => .ident site name
  | .call site receiver args =>
    .call site (Expr.binds_bind receiver) (Expr.binds_mapAll args)

theorem Expr.binds_mapAll : ∀ es : List (Expr ι),
    List.Forall₂ (Expr.Binds s) es
      (Expr.mapAll (fun i => i) (fun scope => some (scope.getD s)) es)
  | [] => .nil
  | e :: es => .cons (Expr.binds_bind e) (Expr.binds_mapAll es)

theorem Expr.binds_mapOption : ∀ o : Option (Expr ι),
    Option.Rel (Expr.Binds s) o
      (Expr.mapOption (fun i => i) (fun scope => some (scope.getD s)) o)
  | none => .none
  | some e => .some (Expr.binds_bind e)

theorem Stmt.binds_map : ∀ stmt : Stmt ι,
    stmt.Binds s (stmt.map (fun i => i) fun scope => some (scope.getD s))
  | .bind id span name ty value => .bind id span name ty (Expr.binds_mapOption value)
  | .eval id span expr => .eval id span (Expr.binds_bind expr)
  | .ret id span value => .ret id span (Expr.binds_mapOption value)

theorem Stmt.binds_mapAll : ∀ stmts : List (Stmt ι),
    List.Forall₂ (Stmt.Binds s) stmts
      (Stmt.mapAll (fun i => i) (fun scope => some (scope.getD s)) stmts)
  | [] => .nil
  | stmt :: stmts => .cons (Stmt.binds_map stmt) (Stmt.binds_mapAll stmts)

end

end

/-! ## Printing -/

section

variable (g : Option ScopeId → Option ScopeId)

mutual

/-- Scopes are not printed. -/
theorem Expr.toJson_map : ∀ e : Expr NodeId, (e.map (fun i => i) g).toJson = e.toJson
  | .literal _ _ => rfl
  | .lambda site body => by
    rw [Expr.map, Expr.toJson, Expr.toJson, Stmt.listToJson_mapAll body, Site.map]
  | .ident _ _ => rfl
  | .call site receiver args => by
    rw [Expr.map, Expr.toJson, Expr.toJson, Expr.toJson_map receiver, Expr.listToJson_mapAll args,
      Site.map]

theorem Expr.listToJson_mapAll : ∀ es : List (Expr NodeId),
    Expr.listToJson (Expr.mapAll (fun i => i) g es) = Expr.listToJson es
  | [] => rfl
  | e :: es => by
    rw [Expr.mapAll, Expr.listToJson, Expr.listToJson, Expr.toJson_map e,
      Expr.listToJson_mapAll es]

theorem Expr.optionToJson_mapOption : ∀ o : Option (Expr NodeId),
    Expr.optionToJson (Expr.mapOption (fun i => i) g o) = Expr.optionToJson o
  | none => rfl
  | some e => by
    rw [Expr.mapOption, Expr.optionToJson, Expr.optionToJson, Expr.toJson_map e]

theorem Stmt.toJson_map : ∀ s : Stmt NodeId, (s.map (fun i => i) g).toJson = s.toJson
  | .bind _ _ _ _ value => by
    rw [Stmt.map, Stmt.toJson, Stmt.toJson, Expr.optionToJson_mapOption value]
  | .eval _ _ expr => by rw [Stmt.map, Stmt.toJson, Stmt.toJson, Expr.toJson_map expr]
  | .ret _ _ value => by
    rw [Stmt.map, Stmt.toJson, Stmt.toJson, Expr.optionToJson_mapOption value]

theorem Stmt.listToJson_mapAll : ∀ ss : List (Stmt NodeId),
    Stmt.listToJson (Stmt.mapAll (fun i => i) g ss) = Stmt.listToJson ss
  | [] => rfl
  | s :: ss => by
    rw [Stmt.mapAll, Stmt.listToJson, Stmt.listToJson, Stmt.toJson_map s,
      Stmt.listToJson_mapAll ss]

end

end

/-! ## Numbering -/

mutual

/-- A tree with all its ids draws none. -/
theorem Expr.number_map_some : ∀ (e : Expr NodeId),
    (e.map some fun s => s).number = pure e
  | .literal _ _ => rfl
  | .lambda _ body => by rw [Expr.map, Expr.number, Stmt.numberAll_mapAll_some body]; rfl
  | .ident _ _ => rfl
  | .call _ receiver args => by
    rw [Expr.map, Expr.number, Expr.number_map_some receiver, Expr.numberAll_mapAll_some args]
    rfl

theorem Expr.numberAll_mapAll_some : ∀ es : List (Expr NodeId),
    Expr.numberAll (Expr.mapAll some (fun s => s) es) = pure es
  | [] => rfl
  | e :: es => by
    rw [Expr.mapAll, Expr.numberAll, Expr.number_map_some e, Expr.numberAll_mapAll_some es]
    rfl

theorem Expr.numberOption_mapOption_some : ∀ o : Option (Expr NodeId),
    Expr.numberOption (Expr.mapOption some (fun s => s) o) = pure o
  | none => rfl
  | some e => by rw [Expr.mapOption, Expr.numberOption, Expr.number_map_some e]; rfl

theorem Stmt.number_map_some : ∀ s : Stmt NodeId, (s.map some fun s => s).number = pure s
  | .bind _ _ _ _ value => by
    rw [Stmt.map, Stmt.number, Expr.numberOption_mapOption_some value]
    rfl
  | .eval _ _ expr => by rw [Stmt.map, Stmt.number, Expr.number_map_some expr]; rfl
  | .ret _ _ value => by
    rw [Stmt.map, Stmt.number, Expr.numberOption_mapOption_some value]
    rfl

theorem Stmt.numberAll_mapAll_some : ∀ ss : List (Stmt NodeId),
    Stmt.numberAll (Stmt.mapAll some (fun s => s) ss) = pure ss
  | [] => rfl
  | s :: ss => by
    rw [Stmt.mapAll, Stmt.numberAll, Stmt.number_map_some s, Stmt.numberAll_mapAll_some ss]
    rfl

end

end UnitCheck
