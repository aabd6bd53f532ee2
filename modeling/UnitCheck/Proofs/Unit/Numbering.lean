import Mathlib.Algebra.GroupWithZero.Nat
import Mathlib.Data.List.Perm.Subperm
import UnitCheck.Proofs.Expr.Map
import UnitCheck.Unit.Basic

/-!
# Automatic ids are never repeated

A run reads documents and builds nodes, and every node that is given no id draws one from the same
supply.  The ids that a run draws are consecutive (`Supply.upcoming`), so they are distinct as long
as the supply does not come round.

Numbering a tree fills in the ids that are missing in it (`Supply.Fills`).  Inner nodes draw their
ids first, but what is drawn is the same in whatever order it is listed, so that the ids of a node's
parts put together are those of the node (`Supply.Fills.append`, `Supply.Fills.node`).  The run adds
up what its steps draw (`Numbering.draws_perform`, `Numbering.draws_runAll`).
-/

set_option autoImplicit false

namespace UnitCheck

/-! ## The supply -/

namespace Supply

/-- The next `n` ids. -/
def upcoming (s : Supply) (n : Nat) : List NodeId :=
  (List.range n).map fun k => ⟨s.next + UInt64.ofNat k⟩

/-- The supply when `n` ids have been drawn. -/
def after (s : Supply) (n : Nat) : Supply := ⟨s.next + UInt64.ofNat n⟩

theorem after_zero (s : Supply) : s.after 0 = s := congrArg mk (UInt64.add_zero s.next)

theorem after_add (s : Supply) (m n : Nat) : s.after (m + n) = (s.after m).after n := by
  rw [after, after, after, UInt64.ofNat_add, UInt64.add_assoc]

theorem upcoming_one (s : Supply) : s.upcoming 1 = [⟨s.next⟩] := by
  simp [upcoming, List.range_succ]

theorem upcoming_add (s : Supply) (m n : Nat) :
    s.upcoming (m + n) = s.upcoming m ++ (s.after m).upcoming n := by
  rw [upcoming, List.range_add, List.map_append, List.map_map]
  congr 2
  funext k
  rw [Function.comp_apply, after, UInt64.ofNat_add, UInt64.add_assoc]

/-- The supply comes round only after all numbers of 64 bits. -/
theorem nodup_upcoming (s : Supply) {n : Nat} (h : n ≤ UInt64.size) : (s.upcoming n).Nodup := by
  refine List.pairwise_map.2 (List.Pairwise.and_mem.1 List.nodup_range |>.imp ?_)
  rintro a b ⟨ha, hb, hne⟩ heq
  have hoffset : UInt64.ofNat a = UInt64.ofNat b :=
    (UInt64.add_right_inj s.next).1 (NodeId.mk.inj heq)
  have hnat := congrArg UInt64.toNat hoffset
  rw [UInt64.toNat_ofNat_of_lt' (Nat.lt_of_lt_of_le (List.mem_range.1 ha) h),
    UInt64.toNat_ofNat_of_lt' (Nat.lt_of_lt_of_le (List.mem_range.1 hb) h)] at hnat
  exact hne hnat

/-! ## Filling in ids -/

/-- Of the ids of some nodes, those of the nodes that were given none. -/
def automatic (given : List (Option NodeId)) (ids : List NodeId) : List NodeId :=
  (given.zip ids).filterMap fun p => if p.1.isNone then some p.2 else none

/-- The ids of some nodes, with what they were given: ids that were given are kept, and the others
share the next ids among them. -/
structure Fills (s : Supply) (given : List (Option NodeId)) (ids : List NodeId) (s' : Supply) :
    Prop where
  supply : s' = s.after (given.count none)
  length : ids.length = given.length
  kept : ∀ p ∈ given.zip ids, ∀ id, p.1 = some id → p.2 = id
  drawn : (automatic given ids).Perm (s.upcoming (given.count none))

section

variable {s s' s'' : Supply} {given more : List (Option NodeId)} {ids others : List NodeId}

theorem automatic_append (h : ids.length = given.length) :
    automatic (given ++ more) (ids ++ others) = automatic given ids ++ automatic more others := by
  rw [automatic, List.zip_append h.symm, List.filterMap_append, automatic, automatic]

theorem fills_nil (s : Supply) : Fills s [] [] s :=
  ⟨s.after_zero.symm, rfl, by simp, .nil⟩

theorem fills_fill (o : Option NodeId) (s : Supply) :
    Fills s [o] [(fill o s).1] (fill o s).2 := by
  cases o with
  | some id =>
    have hkept : fill (some id) s = (id, s) := rfl
    rw [hkept]
    exact ⟨s.after_zero.symm, rfl, by simp, .nil⟩
  | none =>
    refine ⟨rfl, rfl, by simp, ?_⟩
    rw [List.count_singleton_self, upcoming_one]
    exact .refl _

/-- What is filled in one after the other is filled in together. -/
theorem Fills.append (h : Fills s given ids s') (h' : Fills s' more others s'') :
    Fills s (given ++ more) (ids ++ others) s'' := by
  refine ⟨?_, ?_, ?_, ?_⟩
  · rw [List.count_append, after_add, ← h.supply]
    exact h'.supply
  · rw [List.length_append, List.length_append, h.length, h'.length]
  · rw [List.zip_append h.length.symm]
    exact List.forall_mem_append.2 ⟨h.kept, h'.kept⟩
  · rw [automatic_append h.length, List.count_append, upcoming_add, ← h.supply]
    exact h.drawn.append h'.drawn

/-- A node draws its id after all nodes inside it, and is listed before them. -/
theorem Fills.node {o : Option NodeId} {id : NodeId} (h : Fills s given ids s')
    (h' : Fills s' [o] [id] s'') : Fills s (o :: given) (id :: ids) s'' := by
  have hcount : (o :: given).count none = (given ++ [o]).count none :=
    (List.perm_append_singleton o given).symm.count_eq none
  obtain ⟨hsupply, -, hkept, hdrawn⟩ := h.append h'
  refine ⟨hcount ▸ hsupply, congrArg Nat.succ h.length, ?_, ?_⟩
  · rw [List.zip_append h.length.symm, List.forall_mem_append] at hkept
    exact List.forall_mem_cons.2 ⟨hkept.2 _ (List.mem_singleton_self _), hkept.1⟩
  · have hfront :
        automatic ([o] ++ given) ([id] ++ ids) = automatic [o] [id] ++ automatic given ids :=
      automatic_append rfl
    rw [automatic_append h.length] at hdrawn
    rw [hcount]
    exact hfront ▸ List.perm_append_comm.trans hdrawn

/-- An id that was given is at its place. -/
theorem Fills.getElem?_eq (h : Fills s given ids s') {i : Nat} {id : NodeId}
    (hi : given[i]? = some (some id)) : ids[i]? = some id := by
  obtain ⟨hlt, -⟩ := List.getElem?_eq_some_iff.1 hi
  rw [← h.length] at hlt
  have hid := List.getElem?_eq_getElem hlt
  have hpair : (given.zip ids)[i]? = some (some id, ids[i]) :=
    List.getElem?_zip_eq_some.2 ⟨hi, hid⟩
  exact hid.trans (congrArg some (h.kept _ (List.mem_of_getElem? hpair) id rfl))

end

end Supply

/-! ## Numbering trees -/

mutual

theorem Expr.fills_number (e : Expr (Option NodeId)) (s : Supply) :
    Supply.Fills s e.ids (e.number s).1.ids (e.number s).2 := by
  cases e with
  | literal site value => exact Supply.fills_fill site.id s
  | lambda site body => exact (Stmt.fills_numberAll body s).node (Supply.fills_fill site.id _)
  | ident site name => exact Supply.fills_fill site.id s
  | call site receiver args =>
    have hreceiver := Expr.fills_number receiver s
    have hargs := Expr.fills_numberAll args (receiver.number s).2
    exact (hreceiver.append hargs).node (Supply.fills_fill site.id _)

theorem Expr.fills_numberAll (es : List (Expr (Option NodeId))) (s : Supply) :
    Supply.Fills s (Expr.idsAll es) (Expr.idsAll (Expr.numberAll es s).1)
      (Expr.numberAll es s).2 := by
  cases es with
  | nil => exact Supply.fills_nil s
  | cons e rest => exact (Expr.fills_number e s).append (Expr.fills_numberAll rest (e.number s).2)

theorem Expr.fills_numberOption (o : Option (Expr (Option NodeId))) (s : Supply) :
    Supply.Fills s (Expr.idsOption o) (Expr.idsOption (Expr.numberOption o s).1)
      (Expr.numberOption o s).2 := by
  cases o with
  | none => exact Supply.fills_nil s
  | some e => exact Expr.fills_number e s

theorem Stmt.fills_number (st : Stmt (Option NodeId)) (s : Supply) :
    Supply.Fills s st.ids (st.number s).1.ids (st.number s).2 := by
  cases st with
  | bind id span name ty value =>
    exact (Expr.fills_numberOption value s).node (Supply.fills_fill id _)
  | eval id span expr => exact (Expr.fills_number expr s).node (Supply.fills_fill id _)
  | ret id span value => exact (Expr.fills_numberOption value s).node (Supply.fills_fill id _)

theorem Stmt.fills_numberAll (ss : List (Stmt (Option NodeId))) (s : Supply) :
    Supply.Fills s (Stmt.idsAll ss) (Stmt.idsAll (Stmt.numberAll ss s).1)
      (Stmt.numberAll ss s).2 := by
  cases ss with
  | nil => exact Supply.fills_nil s
  | cons st rest =>
    exact (Stmt.fills_number st s).append (Stmt.fills_numberAll rest (st.number s).2)

end

section

variable {κ : Type} (c : κ) (g : Option ScopeId → Option ScopeId)

mutual

/-- Numbering changes nothing but ids. -/
theorem Expr.map_number (e : Expr (Option NodeId)) (s : Supply) :
    (e.number s).1.map (fun _ => c) g = e.map (fun _ => c) g := by
  cases e with
  | literal site value => rfl
  | lambda site body =>
    have hbody := Stmt.mapAll_numberAll body s
    rw [Expr.number, Expr.map, ← hbody]
    rfl
  | ident site name => rfl
  | call site receiver args =>
    have hreceiver := Expr.map_number receiver s
    have hargs := Expr.mapAll_numberAll args (receiver.number s).2
    rw [Expr.number, Expr.map, ← hreceiver, ← hargs]
    rfl

theorem Expr.mapAll_numberAll (es : List (Expr (Option NodeId))) (s : Supply) :
    Expr.mapAll (fun _ => c) g (Expr.numberAll es s).1 = Expr.mapAll (fun _ => c) g es := by
  cases es with
  | nil => rfl
  | cons e rest =>
    have he := Expr.map_number e s
    have hrest := Expr.mapAll_numberAll rest (e.number s).2
    rw [Expr.numberAll, Expr.mapAll, ← he, ← hrest]
    rfl

theorem Expr.mapOption_numberOption (o : Option (Expr (Option NodeId))) (s : Supply) :
    Expr.mapOption (fun _ => c) g (Expr.numberOption o s).1 = Expr.mapOption (fun _ => c) g o := by
  cases o with
  | none => rfl
  | some e =>
    have he := Expr.map_number e s
    rw [Expr.numberOption, Expr.mapOption, ← he]
    rfl

theorem Stmt.map_number (st : Stmt (Option NodeId)) (s : Supply) :
    (st.number s).1.map (fun _ => c) g = st.map (fun _ => c) g := by
  cases st with
  | bind id span name ty value =>
    have hvalue := Expr.mapOption_numberOption value s
    rw [Stmt.number, Stmt.map, ← hvalue]
    rfl
  | eval id span expr =>
    have hexpr := Expr.map_number expr s
    rw [Stmt.number, Stmt.map, ← hexpr]
    rfl
  | ret id span value =>
    have hvalue := Expr.mapOption_numberOption value s
    rw [Stmt.number, Stmt.map, ← hvalue]
    rfl

theorem Stmt.mapAll_numberAll (ss : List (Stmt (Option NodeId))) (s : Supply) :
    Stmt.mapAll (fun _ => c) g (Stmt.numberAll ss s).1 = Stmt.mapAll (fun _ => c) g ss := by
  cases ss with
  | nil => rfl
  | cons st rest =>
    have hst := Stmt.map_number st s
    have hrest := Stmt.mapAll_numberAll rest (st.number s).2
    rw [Stmt.numberAll, Stmt.mapAll, ← hst, ← hrest]
    rfl

end

end

namespace CompilationUnit

theorem fills_number (u : CompilationUnit (Option NodeId)) (s : Supply) :
    Supply.Fills s u.ids (u.number s).1.ids (u.number s).2 := by
  have hentries (es : List (Entry (Option NodeId))) (s : Supply) :
      Supply.Fills s (es.flatMap fun e => e.expr.ids)
        ((es.mapM Entry.number s).1.flatMap fun e => e.expr.ids) (es.mapM Entry.number s).2 := by
    induction es generalizing s with
    | nil => exact Supply.fills_nil s
    | cons e rest ih =>
      rw [List.mapM_cons]
      exact (Expr.fills_number e.expr s).append (ih (e.number s).2)
  exact hentries u.entries s

theorem mapId_number {κ : Type} (c : κ) (u : CompilationUnit (Option NodeId)) (s : Supply) :
    (u.number s).1.mapId (fun _ => c) = u.mapId fun _ => c := by
  have hentries (es : List (Entry (Option NodeId))) (s : Supply) :
      (es.mapM Entry.number s).1.map (Entry.mapId fun _ => c) =
        es.map (Entry.mapId fun _ => c) := by
    induction es generalizing s with
    | nil => rfl
    | cons e rest ih =>
      have he : (e.number s).1.mapId (fun _ => c) = e.mapId fun _ => c :=
        congrArg (Entry.mk e.scope) (Expr.map_number c (fun scope => scope) e.expr s)
      rw [List.mapM_cons, List.map_cons, ← he, ← ih (e.number s).2]
      rfl
  rw [mapId, mapId, ← hentries u.entries s]
  rfl

end CompilationUnit

/-! ## Trees of all kinds -/

/-- What has nodes and can be read from a document of its own. -/
inductive NodeTree (ι : Type) where
  | expr (e : Expr ι)
  | stmt (s : Stmt ι)
  | entry (e : Entry ι)
  | unit (u : CompilationUnit ι)

namespace NodeTree

def ids {ι : Type} : NodeTree ι → List ι
  | .expr e => e.ids
  | .stmt s => s.ids
  | .entry e => e.expr.ids
  | .unit u => u.ids

def mapId {ι κ : Type} (f : ι → κ) : NodeTree ι → NodeTree κ
  | .expr e => .expr (e.mapId f)
  | .stmt s => .stmt (s.map f fun scope => scope)
  | .entry e => .entry (e.mapId f)
  | .unit u => .unit (u.mapId f)

def number : NodeTree (Option NodeId) → Numbered (NodeTree NodeId)
  | .expr e => expr <$> e.number
  | .stmt s => stmt <$> s.number
  | .entry e => entry <$> e.number
  | .unit u => unit <$> u.number

theorem mapId_number {κ : Type} (c : κ) (t : NodeTree (Option NodeId)) (s : Supply) :
    (t.number s).1.mapId (fun _ => c) = t.mapId fun _ => c := by
  cases t with
  | expr e => exact congrArg expr (e.map_number c _ s)
  | stmt st => exact congrArg stmt (st.map_number c _ s)
  | entry e => exact congrArg (fun x => entry ⟨e.scope, x⟩) (e.expr.map_number c _ s)
  | unit u => exact congrArg unit (u.mapId_number c s)

/-- **Numbering a tree** keeps the ids that it has and draws one for every other node. -/
theorem fills_number (t : NodeTree (Option NodeId)) (s : Supply) :
    Supply.Fills s t.ids (t.number s).1.ids (t.number s).2 := by
  cases t with
  | expr e => exact e.fills_number s
  | stmt st => exact st.fills_number s
  | entry e => exact e.expr.fills_number s
  | unit u => exact u.fills_number s

end NodeTree

/-! ## Runs -/

/-- What a document is read as.  A unit is read for a file. -/
inductive DocumentKind where
  | expr
  | stmt
  | entry
  | unit (path : String)

namespace DocumentKind

def read (text : String) : DocumentKind → Option (NodeTree (Option NodeId))
  | .expr => ((Json.parse text).bind (Expr.ofJson? Json.maxDepth)).map .expr
  | .stmt => ((Json.parse text).bind Stmt.ofJson?).map .stmt
  | .entry => ((Json.parse text).bind (Entry.ofJson? Json.maxDepth)).map .entry
  | .unit path => (CompilationUnit.parse text path).map .unit

end DocumentKind

/-- A node to be built, from nodes that there are already. -/
inductive NewNode where
  | literal (span : Span) (text : String) (ty : Ty)
  | int (span : Span) (text : String) (signed : Bool) (length : UInt32)
  | lambda (span : Span) (body : List (Stmt NodeId))
  | ident (span : Span) (name : String)
  | call (span : Span) (receiver : Expr NodeId) (args : List (Expr NodeId))
  | bind (span : Span) (name : String) (ty : Option Ty) (value : Option (Expr NodeId))
  | eval (span : Span) (expr : Expr NodeId)
  | ret (span : Span) (value : Option (Expr NodeId))

namespace NewNode

def build : NewNode → Numbered (NodeTree NodeId)
  | .literal span text ty => .expr <$> Expr.newLiteral span text ty
  | .int span text signed length => .expr <$> Expr.newInt span text signed length
  | .lambda span body => .expr <$> Expr.newLambda span body
  | .ident span name => .expr <$> Expr.newIdent span name
  | .call span receiver args => .expr <$> Expr.newCall span receiver args
  | .bind span name ty value => .stmt <$> Stmt.newBind span name ty value
  | .eval span expr => .stmt <$> Stmt.newEval span expr
  | .ret span value => .stmt <$> Stmt.newRet span value

/-- Whatever is built, the new node draws one id, and it is the first of the tree. -/
theorem build_eq (n : NewNode) (s : Supply) :
    (n.build s).2 = s.after 1 ∧ (n.build s).1.ids.take 1 = s.upcoming 1 := by
  rw [Supply.upcoming_one]
  cases n with
  | literal | int | lambda | ident | call | bind | eval | ret => exact ⟨rfl, rfl⟩

end NewNode

namespace Numbering

/-- One step of a run.  A document that is refused may have drawn ids before that came out; how many
of them are lost is left open. -/
inductive Action where
  | read (kind : DocumentKind) (text : String) (lost : Nat)
  | build (node : NewNode)

/-- What has come of a step. -/
inductive Event where
  | refused (lost : Nat)
  /-- A tree with the ids that its document gives, and with all ids. -/
  | accepted (given : NodeTree (Option NodeId)) (tree : NodeTree NodeId)
  | built (tree : NodeTree NodeId)

namespace Event

/-- How many ids were drawn. -/
def drawn : Event → Nat
  | .refused lost => lost
  | .accepted given _ => given.ids.count none
  | .built _ => 1

/-- The ids of the nodes that were given none.  The first id of what is built is that of the new
node, and all others were there before. -/
def automatic : Event → List NodeId
  | .refused _ => []
  | .accepted given tree => Supply.automatic given.ids tree.ids
  | .built tree => tree.ids.take 1

end Event

/-- Draw ids for nothing. -/
def lose : Nat → Numbered Unit
  | 0 => pure ()
  | n + 1 => do
    let _ ← Supply.draw
    lose n

def perform : Action → Numbered Event
  | .read kind text lost =>
    match kind.read text with
    | some given => Event.accepted given <$> given.number
    | none => do
      lose lost
      return .refused lost
  | .build node => Event.built <$> node.build

def runAll (actions : List Action) : Numbered (List Event) := actions.mapM perform

/-! ## What a run draws -/

/-- Events use up the supply by what they draw, and automatic ids are among what is drawn. -/
structure Draws (s : Supply) (events : List Event) (s' : Supply) : Prop where
  supply : s' = s.after (events.map Event.drawn).sum
  automatic : (events.flatMap Event.automatic).Subperm (s.upcoming (events.map Event.drawn).sum)

theorem draws_nil (s : Supply) : Draws s [] s := ⟨s.after_zero.symm, List.Subperm.refl _⟩

theorem Draws.append {s s' s'' : Supply} {before after : List Event} (h : Draws s before s')
    (h' : Draws s' after s'') : Draws s (before ++ after) s'' := by
  obtain ⟨rfl, hbefore⟩ := h
  obtain ⟨rfl, hafter⟩ := h'
  refine ⟨?_, ?_⟩
  · rw [List.map_append, List.sum_append, Supply.after_add]
  · rw [List.map_append, List.sum_append, Supply.upcoming_add, List.flatMap_append]
    exact hbefore.append hafter

theorem draws_singleton {s s' : Supply} {event : Event} (hsupply : s' = s.after event.drawn)
    (hautomatic : event.automatic.Subperm (s.upcoming event.drawn)) : Draws s [event] s' := by
  refine ⟨?_, ?_⟩
  · rw [List.map_singleton, List.sum_singleton, hsupply]
  · rw [List.map_singleton, List.sum_singleton, List.flatMap_singleton]
    exact hautomatic

theorem snd_lose (n : Nat) (s : Supply) : (lose n s).2 = s.after n := by
  induction n generalizing s with
  | zero => exact s.after_zero.symm
  | succ n ih =>
    rw [Nat.add_comm n 1, Supply.after_add, ← ih, Nat.add_comm 1 n]
    rfl

theorem perform_accepted {kind : DocumentKind} {text : String} {given : NodeTree (Option NodeId)}
    (h : kind.read text = some given) (lost : Nat) (s : Supply) :
    perform (.read kind text lost) s =
      (.accepted given (given.number s).1, (given.number s).2) := by
  simp only [perform, h]
  rfl

theorem perform_refused {kind : DocumentKind} {text : String} (h : kind.read text = none)
    (lost : Nat) (s : Supply) :
    perform (.read kind text lost) s = (.refused lost, (lose lost s).2) := by
  simp only [perform, h]
  rfl

/-- Each step draws what it says. -/
theorem draws_perform (action : Action) (s : Supply) :
    Draws s [(perform action s).1] (perform action s).2 := by
  cases action with
  | read kind text lost =>
    cases h : kind.read text with
    | some given =>
      have hfills := given.fills_number s
      rw [perform_accepted h]
      exact draws_singleton hfills.supply hfills.drawn.subperm
    | none =>
      rw [perform_refused h]
      exact draws_singleton (snd_lose lost s) List.nil_subperm
  | build node =>
    obtain ⟨hsupply, hids⟩ := node.build_eq s
    exact draws_singleton hsupply (hids ▸ List.Subperm.refl _)

/-- A run draws what its steps draw. -/
theorem draws_runAll (actions : List Action) (s : Supply) :
    Draws s (runAll actions s).1 (runAll actions s).2 := by
  induction actions generalizing s with
  | nil => exact draws_nil s
  | cons action rest ih =>
    rw [runAll, List.mapM_cons]
    exact (draws_perform action s).append (ih (perform action s).2)

/-- **Automatic ids are never repeated.**  In any run, of documents of all kinds and of nodes that
are built, the ids of the nodes that were given none are distinct, unless the run draws more ids
than there are numbers of 64 bits.  Every document that is accepted, whatever was drawn before,
draws as many ids as it has expressions and statements without one: these share the next ids among
them, the others keep the ids that they have, and nothing else about the tree changes. -/
theorem runAll_ids (actions : List Action) :
    (((runAll actions {}).1.map Event.drawn).sum ≤ UInt64.size →
      ((runAll actions {}).1.flatMap Event.automatic).Nodup) ∧
    ∀ (kind : DocumentKind) (text : String) (given : NodeTree (Option NodeId)),
      kind.read text = some given → ∀ (lost : Nat) (s : Supply),
        ∃ tree, perform (.read kind text lost) s =
            (.accepted given tree, s.after (given.ids.count none)) ∧
          tree.ids.length = given.ids.length ∧
          (∀ (i : Nat) (id : NodeId), given.ids[i]? = some (some id) → tree.ids[i]? = some id) ∧
          (Supply.automatic given.ids tree.ids).Perm (s.upcoming (given.ids.count none)) ∧
          tree.mapId (fun _ => ()) = given.mapId fun _ => () := by
  refine ⟨fun h => ?_, fun kind text given hread lost s => ?_⟩
  · obtain ⟨ids, hperm, hsublist⟩ := (draws_runAll actions {}).automatic
    exact hperm.nodup_iff.1 ((Supply.nodup_upcoming _ h).sublist hsublist)
  · have hfills := given.fills_number s
    refine ⟨(given.number s).1, ?_, hfills.length, fun i id hi => hfills.getElem?_eq hi,
      hfills.drawn, given.mapId_number () s⟩
    rw [perform_accepted hread, hfills.supply]

/-- An id that a document gives may be one that is drawn as well, and a document that is refused
uses up ids. -/
theorem runAll_ids_lambda :
    let text := "[\"Lambda\",1,[],[[\"Return\"],[\"Return\"]]]"
    let actions := [.read .expr text 0, .read .stmt "[\"Let\"]" 3, .build (.ident {} "x")]
    ((runAll actions {}).1.map Event.drawn).sum ≤ UInt64.size ∧
      (runAll actions {}).1.flatMap Event.automatic = [⟨1⟩, ⟨2⟩, ⟨6⟩] ∧
      ((runAll actions {}).1.flatMap Event.automatic).Nodup ∧
      ∃ given, DocumentKind.expr.read text = some given ∧ given.ids = [some ⟨1⟩, none, none] ∧
        ∃ tree, perform (.read .expr text 0) {} = (.accepted given tree, ⟨3⟩) ∧
          tree.ids[0]? = some ⟨1⟩ ∧
          (Supply.automatic given.ids tree.ids).Perm [⟨1⟩, ⟨2⟩] := by
  intro text actions
  have hdrawn : ((runAll actions {}).1.map Event.drawn).sum ≤ UInt64.size := by decide +kernel
  have hids : (DocumentKind.expr.read text).map NodeTree.ids = some [some ⟨1⟩, none, none] := by
    decide +kernel
  obtain ⟨given, hread, hgiven⟩ := Option.map_eq_some_iff.1 hids
  obtain ⟨hdistinct, haccepted⟩ := runAll_ids actions
  obtain ⟨tree, hperform, -, hkept, hautomatic, -⟩ := haccepted .expr text given hread 0 {}
  refine ⟨hdrawn, by decide +kernel, hdistinct hdrawn, given, hread, hgiven, tree, ?_, ?_, ?_⟩
  · rw [hperform, hgiven]
    rfl
  · exact hkept 0 ⟨1⟩ (by rw [hgiven]; rfl)
  · rwa [hgiven] at hautomatic ⊢

end Numbering

end UnitCheck
