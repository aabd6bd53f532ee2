import UnitCheck.Json.Reader
import UnitCheck.Proofs.Json.Scan

/-!
# Printing a value and reading it back

The tokens of a value take the reader from any state that expects a value to the state in which the
value has been delivered (`Reader.Reads`).  Two kinds of state expect one, behind a comma or colon
and right behind `[`; `Reader.Expects` is what they have in common.

Together with the scanner's half this is `parse_render_reread`: what `Json.render` prints,
`Json.parse` reads as the same value, but for natural numbers of more than 64 bits.  Documents have
none of these, and for them it is `parse_render`.
-/

set_option autoImplicit false

namespace UnitCheck

namespace Json

namespace Reader

/-- A value may begin here, and goes to `outer` once it is complete. -/
def Expects (st : State) (outer : List Frame) : Prop :=
  ∀ t, t ≠ Token.endArray → step st t = openValue outer t

theorem expects_value (outer : List Frame) : Expects (.value outer) outer :=
  fun _ _ => rfl

theorem expects_arrayStart (outer : List Frame) :
    Expects (.arrayStart outer) (.array [] :: outer) := by
  intro t ht
  cases t with
  | endArray => exact absurd rfl ht
  | _ => rfl

/-- A key may begin here, behind the members that have been read. -/
def ExpectsKey (st : State) (before : List (Option String × Json)) (outer : List Frame) : Prop :=
  ∀ k, step st (.text k) = some (.keyNext before k outer)

/-- Wherever a value is expected, the tokens of this one deliver it. -/
def Reads (j : Json) : Prop :=
  ∀ {st : State} {outer : List Frame}, Expects st outer →
    j.tokens.foldlM step st = some (deliver j outer)

/-! ## Elements and members -/

theorem foldlM_item {j : Json} (h : Reads j) {st : State} {before : List Json}
    {outer : List Frame} (hst : Expects st (.array before :: outer)) (rest : List Token) :
    (j.tokens ++ rest).foldlM step st = rest.foldlM step (.arrayNext (j :: before) outer) := by
  rw [List.foldlM_append, h hst, Option.bind_eq_bind, Option.bind_some, deliver]

theorem foldlM_itemTokens {j : Json} {rest : List Json} (h : ∀ i ∈ j :: rest, Reads i)
    {st : State} {before : List Json} {outer : List Frame}
    (hst : Expects st (.array before :: outer)) :
    (itemTokens (j :: rest)).foldlM step st =
      some (deliver (.arr (before.reverse ++ j :: rest)) outer) := by
  induction rest generalizing j st before with
  | nil =>
    rw [itemTokens, foldlM_item (h j (by simp)) hst]
    simp [step]
  | cons k rest ih =>
    have hcomma : step (.arrayNext (j :: before) outer) .comma =
        some (.value (.array (j :: before) :: outer)) := rfl
    rw [itemTokens, foldlM_item (h j (by simp)) hst, List.foldlM_cons, hcomma,
      Option.bind_eq_bind, Option.bind_some, ih (fun i hi => h i (by simp [hi])) (expects_value _)]
    · simp
    · simp

theorem foldlM_member {k : String} {j : Json} (h : Reads j) {st : State}
    {before : List (Option String × Json)} {outer : List Frame} (hst : ExpectsKey st before outer)
    (rest : List Token) :
    (.text (some k) :: .colon :: (j.tokens ++ rest)).foldlM step st =
      rest.foldlM step (.objectNext ((some k, j) :: before) outer) := by
  have hcolon : step (.keyNext before (some k) outer) .colon =
      some (.value (.object before (some k) :: outer)) := rfl
  rw [List.foldlM_cons, hst, Option.bind_eq_bind, Option.bind_some, List.foldlM_cons, hcolon,
    Option.bind_eq_bind, Option.bind_some, List.foldlM_append, h (expects_value _),
    Option.bind_eq_bind, Option.bind_some, deliver]

theorem foldlM_memberTokens {m : String × Json} {rest : List (String × Json)}
    (h : ∀ n ∈ m :: rest, Reads n.2) {st : State} {before : List (Option String × Json)}
    {outer : List Frame} (hst : ExpectsKey st before outer) :
    (memberTokens (m :: rest)).foldlM step st =
      some (deliver (closeObject (before.reverse ++ (m :: rest).map fun n => (some n.1, n.2)))
        outer) := by
  induction rest generalizing m st before with
  | nil =>
    obtain ⟨k, j⟩ := m
    rw [memberTokens, foldlM_member (h (k, j) (by simp)) hst]
    simp [step]
  | cons n rest ih =>
    obtain ⟨k, j⟩ := m
    have hcomma : step (.objectNext ((some k, j) :: before) outer) .comma =
        some (.key ((some k, j) :: before) outer) := rfl
    have hkey : ExpectsKey (.key ((some k, j) :: before) outer) ((some k, j) :: before) outer :=
      fun _ => rfl
    rw [memberTokens, foldlM_member (h (k, j) (by simp)) hst, List.foldlM_cons, hcomma,
      Option.bind_eq_bind, Option.bind_some, ih (fun i hi => h i (by simp [hi])) hkey]
    · simp
    · simp

theorem closeObject_map_some (members : List (String × Json)) :
    closeObject (members.map fun m => (some m.1, m.2)) = .obj members := by
  have h : namedMembers (members.map fun m => (some m.1, m.2)) = some members := by
    induction members with
    | nil => rfl
    | cons m rest ih => rw [List.map_cons, namedMembers, ih, Option.map_some]
  rw [closeObject, h]

/-! ## Values -/

theorem reads_of_openValue {j : Json} {t : Token} (htokens : j.tokens = [t])
    (ht : t ≠ .endArray) (hopen : ∀ outer, openValue outer t = some (deliver j outer)) :
    Reads j := by
  intro st outer hst
  rw [htokens, List.foldlM_cons, hst t ht, hopen]
  rfl

mutual

/-- **The reader delivers a value from its tokens**, whatever it is waiting for. -/
theorem reads_tokens (j : Json) : Reads j := by
  cases j with
  | null => exact reads_of_openValue rfl (by simp) fun _ => rfl
  | bool b => exact reads_of_openValue rfl (by simp) fun _ => rfl
  | nat n => exact reads_of_openValue rfl (by simp) fun _ => rfl
  | real => exact reads_of_openValue rfl (by simp) fun _ => rfl
  | str s => exact reads_of_openValue rfl (by simp) fun _ => rfl
  | invalid => exact reads_of_openValue rfl (by simp) fun _ => rfl
  | arr items =>
    intro st outer hst
    rw [tokens, List.foldlM_cons, hst .beginArray (by simp), openValue,
      Option.bind_eq_bind, Option.bind_some]
    have hitems := reads_items items
    cases items with
    | nil => rfl
    | cons j rest => exact foldlM_itemTokens hitems (expects_arrayStart outer)
  | obj members =>
    intro st outer hst
    rw [tokens, List.foldlM_cons, hst .beginObject (by simp), openValue,
      Option.bind_eq_bind, Option.bind_some]
    have hmembers := reads_members members
    cases members with
    | nil => rfl
    | cons m rest =>
      have hkey : ExpectsKey (.objectStart outer) [] outer := fun _ => rfl
      rw [foldlM_memberTokens hmembers hkey, List.reverse_nil, List.nil_append,
        closeObject_map_some]

theorem reads_items (items : List Json) : ∀ j ∈ items, Reads j := by
  cases items with
  | nil => simp
  | cons j rest => exact List.forall_mem_cons.2 ⟨reads_tokens j, reads_items rest⟩

theorem reads_members (members : List (String × Json)) : ∀ m ∈ members, Reads m.2 := by
  cases members with
  | nil => simp
  | cons m rest =>
    obtain ⟨k, j⟩ := m
    exact List.forall_mem_cons.2 ⟨reads_tokens j, reads_members rest⟩

end

end Reader

/-- Every value has a text, and the text denotes the value up to the size of natural numbers. -/
theorem parse_render_reread (j : Json) : parse j.render = some j.reread := by
  rw [parse, render, String.toList_ofList, Token.scan_chars, Option.bind_some, ofTokens,
    Reader.reads_tokens j.reread (Reader.expects_value []), Option.bind_some]
  rfl

/-- **What is printed reads back as the same value.** -/
theorem parse_render {j : Json} (h : Plain j) : parse j.render = some j := by
  rw [parse_render_reread, h.reread_eq]

end Json

end UnitCheck
