import Mathlib.Algebra.Group.Nat.Defs
import UnitCheck.Environment

/-!
# Environments as lists of scopes

`Environment.ofList scopes` is the environment with these scopes, in the order of their numbers.
Scopes are opened and filled at the end of the list, so what opening and declaring do is stated for
the last scope (`child_ofList`, `declare_ofList`).

The way from a scope up to the root goes to smaller numbers only.  Hence a lookup sees nothing of
the scopes that are opened later (`find?_append`).
-/

set_option autoImplicit false

namespace UnitCheck

theorem exists_of_bind_eq_ok {ε α β : Type} {x : Except ε α} {f : α → Except ε β} {b : β}
    (h : (x >>= f) = .ok b) : ∃ a, x = .ok a ∧ f a = .ok b := by
  cases x with
  | error e => cases h
  | ok a => exact ⟨a, rfl, h⟩

theorem eq_ok_of_toOption {ε α : Type} {x : Except ε α} {a : α} (h : x.toOption = some a) :
    x = .ok a := by
  cases x with
  | error e => cases h
  | ok a' =>
    cases h
    rfl

theorem ScopeId.toNat_index_inj {s t : ScopeId} : s.index.toNat = t.index.toNat ↔ s = t := by
  rw [UInt32.toNat_inj, ScopeId.mk.injEq]

namespace Environment

/-- The environment with these scopes. -/
def ofList (scopes : List Scope) : Environment := ⟨scopes.toArray⟩

@[simp] theorem count_ofList (scopes : List Scope) : (ofList scopes).count = scopes.length := by
  simp [ofList, count]

@[simp] theorem scope?_ofList (scopes : List Scope) (s : ScopeId) :
    (ofList scopes).scope? s = scopes[s.index.toNat]? := by
  simp [ofList, scope?]

/-! ## Opening and declaring -/

theorem child_ofList (scopes : List Scope) (parent : ScopeId) :
    (ofList scopes).child parent =
      if parent.index.toNat < scopes.length then
        .ok (⟨scopes.length.toUInt32⟩, ofList (scopes ++ [{ parent := some parent }]))
      else .error (.unknownScope parent) := by
  simp [child, contains, ofList, count]

theorem toNat_toUInt32 {n : Nat} (h : n < 2 ^ 32) : n.toUInt32.toNat = n := by
  rw [Nat.toUInt32, UInt32.toNat_ofNat', Nat.mod_eq_of_lt h]

/-- Declaring in the last scope what is no query. -/
theorem declare_ofList {scopes : List Scope} (scope : Scope) {s : ScopeId}
    (hs : s.index.toNat = scopes.length) {d : Declaration} (hquery : d.isQuery = false) :
    (ofList (scopes ++ [scope])).declare s d =
      match scope.get? d.name with
      | some previous => .error (.duplicate d.name d.span previous.span)
      | none =>
        .ok (ofList (scopes ++ [{ scope with declarations := d :: scope.declarations }])) := by
  have hscope : (ofList (scopes ++ [scope])).scope? s = some scope := by
    rw [scope?_ofList, hs, List.getElem?_concat_length]
  have hset : ∀ grown, (ofList (scopes ++ [scope])).scopes.setIfInBounds s.index.toNat grown =
      (scopes ++ [grown]).toArray := by
    intro grown
    rw [ofList, List.setIfInBounds_toArray, hs, List.set_append_right _ _ (Nat.le_refl _)]
    simp
  simp only [declare, hquery, hscope, hset, Bool.false_eq_true, if_false]
  rfl

theorem declare_query (env : Environment) (s : ScopeId) {d : Declaration}
    (hquery : d.isQuery = true) : env.declare s d = .error (.queryDeclaration d.name) := by
  rw [declare, if_pos hquery]

/-! ## The way up -/

theorem lineageFrom_of_none {scopes : List Scope} {k : Nat} (h : scopes[k]? = none) :
    (ofList scopes).lineageFrom k = [] := by
  rw [lineageFrom]
  simp [ofList, h]

theorem lineageFrom_root {scopes : List Scope} {k : Nat} {scope : Scope}
    (h : scopes[k]? = some scope) (hp : scope.parent = none) :
    (ofList scopes).lineageFrom k = [scope] := by
  rw [lineageFrom]
  simp [ofList, h, hp]

theorem lineageFrom_nested {scopes : List Scope} {k : Nat} {scope : Scope} {p : ScopeId}
    (h : scopes[k]? = some scope) (hp : scope.parent = some p) (hlt : p.index.toNat < k) :
    (ofList scopes).lineageFrom k = scope :: (ofList scopes).lineageFrom p.index.toNat := by
  rw [lineageFrom]
  simp [ofList, h, hp, hlt]

theorem lineageFrom_append {scopes : List Scope} (later : List Scope) {k : Nat}
    (hk : k < scopes.length) :
    (ofList (scopes ++ later)).lineageFrom k = (ofList scopes).lineageFrom k := by
  induction k using Nat.strongRecOn with
  | ind k ih =>
    have hscope : (scopes ++ later)[k]? = scopes[k]? := List.getElem?_append_left hk
    rw [lineageFrom, lineageFrom]
    simp only [ofList, List.getElem?_toArray, hscope]
    cases scopes[k]? with
    | none => rfl
    | some scope =>
      cases hp : scope.parent with
      | none => simp only [hp]
      | some p =>
        simp only [hp]
        split
        · rename_i hlt
          exact congrArg (scope :: ·) (ih p.index.toNat hlt (by omega))
        · rfl

/-- **A lookup sees nothing of later scopes.** -/
theorem find?_append {scopes : List Scope} (later : List Scope) {s : ScopeId}
    (hs : s.index.toNat < scopes.length) (name : String) :
    (ofList (scopes ++ later)).find? s name = (ofList scopes).find? s name := by
  rw [find?, find?, lineage, lineage, lineageFrom_append later hs]

end Environment

end UnitCheck
