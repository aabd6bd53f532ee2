import UnitCheck.Proofs.Document.Expr
import UnitCheck.Proofs.Json.RoundTrip
import UnitCheck.Unit.Basic

/-!
# The documents of a unit

`CompilationUnit.Doc u j` says that `j` is a document of `u`: each record in it is an object or an
array, a declaration always an object.  Here the limit on nesting shows on the outside: a document
is read exactly if it nests at most as deep as the reader has room for, declarations
(`Declaration.Doc.ofJson?_eq`), scopes, entries and whole units alike.

`CompilationUnit.parse_render_eq` puts printing and reading together: the text of a unit is read
back as the unit, without its scopes, if and only if it nests at most 127 deep.
`CompilationUnit.parse_of_doc` says the same of all documents of the unit, in whichever form their
records are.
-/

set_option autoImplicit false

namespace UnitCheck

open Json (RecordOf OptionOf Plain)

/-! ## Declarations -/

/-- The members of a declaration that tell its kind. -/
inductive Declaration.Kind.Doc : Declaration.Kind → List (String × Json) → Prop
  | query : Declaration.Kind.Doc .query [("kind", .str "query")]
  | var {ty : Ty} {j : Json} (h : ty.Doc j) :
      Declaration.Kind.Doc (.var ty) [("kind", .str "variable"), ("ty", j)]
  | typeName {ty : Ty} {j : Json} (h : ty.Doc j) :
      Declaration.Kind.Doc (.typeName ty) [("kind", .str "type_name"), ("ty", j)]

/-- The documents of a declaration. -/
inductive Declaration.Doc (d : Declaration) : Json → Prop
  | mk {js : Json} {rest : List (String × Json)} (hs : d.span.Doc js) (hk : d.kind.Doc rest) :
      Declaration.Doc d (.obj (("span", js) :: ("name", .str d.name) :: rest))

namespace Declaration

theorem Kind.doc_members (k : Kind) : k.Doc k.members := by
  cases k with
  | query => exact .query
  | var ty => exact .var ty.doc_toJson
  | typeName ty => exact .typeName ty.doc_toJson

theorem doc_toJson (d : Declaration) : d.Doc d.toJson :=
  .mk d.span.doc_toJson d.kind.doc_members

theorem Kind.Doc.plain {k : Kind} {rest : List (String × Json)} (h : k.Doc rest) :
    ∀ m ∈ rest, Plain m.2 := by
  cases h with
  | query => simp [Plain.str]
  | var h => simp [Plain.str, h.plain]
  | typeName h => simp [Plain.str, h.plain]

theorem Kind.Doc.key_ne {k : Kind} {rest : List (String × Json)} (h : k.Doc rest) :
    ∀ m ∈ rest, m.1 ≠ "span" ∧ m.1 ≠ "name" := by
  cases h with
  | query => simp
  | var _ => simp
  | typeName _ => simp

theorem decodeTy_of_doc {room : Nat} {ty : Ty} {j : Json} (h : ty.Doc j)
    (hroom : j.depth ≤ room) : decodeTy room (.obj [("ty", j)]) = some ty := by
  have hfields : Json.fields ["ty"] (.obj [("ty", j)]) = some [some j] :=
    Json.fields_zip ["ty"] [j] (by decide) rfl
  rw [decodeTy, hfields]
  exact Ty.decode_of_doc true h hroom

theorem Kind.decode_of_doc {k : Kind} {rest : List (String × Json)} {room : Nat} (h : k.Doc rest)
    (hroom : Json.memberDepths rest ≤ room) : Kind.decode room rest = some k := by
  rw [Json.memberDepths_le_iff] at hroom
  cases h with
  | query =>
    rw [Kind.decode, Json.tagged_cons (by simp)]
    rfl
  | @var ty j h =>
    have hform : Json.variant forms true (.str "variable") = some .var := rfl
    rw [Kind.decode, Json.tagged_cons (by simp)]
    simp [hform, decodeTy_of_doc h (hroom ("ty", j) (by simp))]
  | @typeName ty j h =>
    have hform : Json.variant forms true (.str "type_name") = some .typeName := rfl
    rw [Kind.decode, Json.tagged_cons (by simp)]
    simp [hform, decodeTy_of_doc h (hroom ("ty", j) (by simp))]

variable {d : Declaration} {j : Json}

theorem Doc.plain (h : d.Doc j) : Plain j := by
  obtain ⟨hs, hk⟩ := h
  refine .obj (List.forall_mem_cons.2 ⟨hs.plain, List.forall_mem_cons.2 ⟨.str _, hk.plain⟩⟩)

theorem Kind.Doc.filter_members {k : Kind} {rest : List (String × Json)} (h : k.Doc rest)
    (js jn : Json) :
    (("span", js) :: ("name", jn) :: rest).filter (fun m => !(["span", "name"].contains m.1)) =
      rest := by
  rw [List.filter_cons_of_neg (by simp), List.filter_cons_of_neg (by simp), List.filter_eq_self]
  intro m hm
  simpa using h.key_ne m hm

theorem Kind.Doc.all_fits {k : Kind} {rest : List (String × Json)} (h : k.Doc rest) (room : Nat) :
    (rest.all fun m => m.2.fits room) = decide (Json.memberDepths rest ≤ room) := by
  rw [Bool.eq_iff_iff, List.all_eq_true, decide_eq_true_eq, Json.memberDepths_le_iff]
  refine forall₂_congr fun m hm => ?_
  rw [(h.plain m hm).fits_eq, decide_eq_true_eq]

theorem Kind.Doc.fields_eq {k : Kind} {rest : List (String × Json)} (h : k.Doc rest)
    (js jn : Json) :
    Json.fields ["span", "name"] (.obj (("span", js) :: ("name", jn) :: rest)) =
      some [some js, some jn] := by
  have hspan : Json.only? (("span", js) :: ("name", jn) :: rest) "span" = some (some js) := by
    refine Json.only?_append_cons [] js (by simp) ?_
    simpa using fun j hj => (h.key_ne _ hj).1 rfl
  have hname : Json.only? (("span", js) :: ("name", jn) :: rest) "name" = some (some jn) := by
    refine Json.only?_append_cons [("span", js)] jn (by simp) ?_
    simpa using fun j hj => (h.key_ne _ hj).2 rfl
  rw [Json.fields, List.mapM_cons, hspan, List.mapM_cons, hname]
  rfl

/-- A declaration is read exactly if there is room for it. -/
theorem Doc.ofJson?_eq {room : Nat} (h : d.Doc j) (hroom : 2 ≤ room) :
    ofJson? room j = if j.depth ≤ room then some d else none := by
  obtain ⟨r, rfl⟩ : ∃ r, room = r + 1 := ⟨room - 1, by omega⟩
  obtain @⟨js, rest, hs, hk⟩ := h
  have hdepth : (Json.obj (("span", js) :: ("name", .str d.name) :: rest)).depth ≤ r + 1 ↔
      Json.memberDepths rest ≤ r := by
    rw [Json.depth, Json.memberDepths_cons, Json.memberDepths_cons, hs.depth_eq, Json.depth]
    omega
  rw [ofJson?]
  simp only [hk.filter_members, hk.all_fits, hk.fields_eq, hdepth, decide_eq_true_eq]
  split
  · rename_i hle
    simp [hs.ofJson?, Kind.decode_of_doc hk hle]
  · rfl

end Declaration

/-! ## Scopes and entries -/

theorem ScopeId.ofJson?_toJson (s : ScopeId) : ScopeId.ofJson? s.toJson = some s := by
  rw [ScopeId.ofJson?, ScopeId.toJson, Json.asUInt32_ofUInt32]
  rfl

theorem ScopeId.depth_toJson (s : ScopeId) : s.toJson.depth = 0 := Json.depth_ofUInt32 s.index

theorem ScopeId.plain_toJson (s : ScopeId) : Plain s.toJson := Json.plain_ofUInt32 s.index

theorem forall₂_map_toJson {α : Type} {R : α → Json → Prop} {write : α → Json}
    (h : ∀ a, R a (write a)) (as : List α) : List.Forall₂ R as (as.map write) := by
  induction as with
  | nil => exact .nil
  | cons a as ih => exact .cons (h a) ih

namespace ScopeSpec

/-- The documents of a nested scope. -/
inductive Doc (s : ScopeSpec) : Json → Prop
  | mk {items : List Json} {j : Json} (hd : List.Forall₂ Declaration.Doc s.declarations items)
      (h : RecordOf ["parent", "declarations"] [s.parent.toJson, .arr items] j) : Doc s j

theorem doc_toJson (s : ScopeSpec) : s.Doc s.toJson :=
  .mk (forall₂_map_toJson Declaration.doc_toJson s.declarations) .keyed

variable {s : ScopeSpec} {j : Json}

theorem Doc.plain (h : s.Doc j) : Plain j := by
  obtain @⟨items, _, hd, h⟩ := h
  have hitems : ∀ i ∈ items, Plain i := by
    intro i hi
    obtain ⟨d, -, hdi⟩ := Json.exists_of_forall₂ hd hi
    exact hdi.plain
  exact h.plain (by simp [ScopeId.plain_toJson, Plain.arr hitems])

/-- A scope is read exactly if there is room for it. -/
theorem Doc.ofJson?_eq {room : Nat} (h : s.Doc j) (hroom : 4 ≤ room) :
    ofJson? room j = if j.depth ≤ room then some s else none := by
  obtain @⟨items, _, hd, h⟩ := h
  have hfields := h.fields_eq (by decide) rfl
  have hitems : Json.asList (Declaration.ofJson? (room - 2)) (.arr items) =
      if Json.depths items ≤ room - 2 then some (s.declarations.map fun d => d) else none :=
    Json.asList_eq_ite _ hd fun d i hdi => hdi.ofJson?_eq (by omega)
  have hdepth : j.depth ≤ room ↔ Json.depths items ≤ room - 2 := by
    rw [h.depth_eq rfl, Json.depths_cons, Json.depths_cons, ScopeId.depth_toJson, Json.depth,
      Json.depths]
    omega
  rw [ofJson?, hfields]
  simp only [List.map_cons, List.map_nil, Option.bind_eq_bind, Option.bind_some,
    Json.withDefault_some, ScopeId.ofJson?_toJson, hitems, hdepth]
  split
  · simp
  · rfl

end ScopeSpec

theorem Expr.Doc.ofJson?_eq {e : Expr NodeId} {j : Json} (h : e.Doc j) (room : Nat) :
    Expr.ofJson? room j = if j.depth ≤ room then some (e.map some fun _ => none) else none := by
  rw [Expr.ofJson?, h.plain.fits_eq]
  simp only [decide_eq_true_eq]
  split
  · rename_i hle
    exact (decodesDocs room).expr false h hle
  · rfl

namespace Entry

/-- The documents of an entry. -/
inductive Doc (e : Entry NodeId) : Json → Prop
  | mk {je j : Json} (he : e.expr.Doc je)
      (h : RecordOf ["scope", "expr"] [e.scope.toJson, je] j) : Doc e j

theorem doc_toJson (e : Entry NodeId) : e.Doc e.toJson :=
  .mk e.expr.doc_toJson .keyed

variable {e : Entry NodeId} {j : Json}

theorem Doc.plain (h : e.Doc j) : Plain j := by
  obtain ⟨he, h⟩ := h
  exact h.plain (by simp [ScopeId.plain_toJson, he.plain])

/-- An entry is read exactly if there is room for it, and comes back unbound. -/
theorem Doc.ofJson?_eq {room : Nat} (h : e.Doc j) (hroom : 1 ≤ room) :
    ofJson? room j =
      if j.depth ≤ room then some ⟨e.scope, e.expr.map some fun _ => none⟩ else none := by
  obtain @⟨je, _, he, h⟩ := h
  have hfields := h.fields_eq (by decide) rfl
  have hdepth : j.depth ≤ room ↔ je.depth ≤ room - 1 := by
    rw [h.depth_eq rfl, Json.depths_cons, Json.depths_cons, ScopeId.depth_toJson, Json.depths]
    omega
  rw [ofJson?, hfields]
  simp only [List.map_cons, List.map_nil, Option.bind_eq_bind, Option.bind_some,
    Json.withDefault_some, Json.required_some, ScopeId.ofJson?_toJson, he.ofJson?_eq, hdepth]
  split <;> rfl

end Entry

/-! ## Units -/

namespace CompilationUnit

def fieldNames : List String := ["file", "source", "declarations", "scopes", "expressions"]

/-- The lists of a unit, as they are written. -/
structure ListsDoc (u : CompilationUnit NodeId) (ds ss es : List Json) : Prop where
  declarations : List.Forall₂ Declaration.Doc u.declarations ds
  scopes : List.Forall₂ ScopeSpec.Doc u.scopes ss
  entries : List.Forall₂ Entry.Doc u.entries es

/-- The documents of a unit.  A unit without source text may leave out the field for it. -/
inductive Doc (u : CompilationUnit NodeId) : Json → Prop
  | full {jo j : Json} {ds ss es : List Json}
      (ho : OptionOf (fun s i => i = Json.str s) u.source jo)
      (hl : u.ListsDoc ds ss es)
      (h : RecordOf fieldNames [.str u.file, jo, .arr ds, .arr ss, .arr es] j) : Doc u j
  | sourceless {ds ss es : List Json} (ho : u.source = none) (hl : u.ListsDoc ds ss es) :
      Doc u (.obj [("file", .str u.file), ("declarations", .arr ds), ("scopes", .arr ss),
        ("expressions", .arr es)])

theorem listsDoc_toJson (u : CompilationUnit NodeId) :
    u.ListsDoc (u.declarations.map Declaration.toJson) (u.scopes.map ScopeSpec.toJson)
      (u.entries.map Entry.toJson) where
  declarations := forall₂_map_toJson Declaration.doc_toJson u.declarations
  scopes := forall₂_map_toJson ScopeSpec.doc_toJson u.scopes
  entries := forall₂_map_toJson Entry.doc_toJson u.entries

theorem doc_toJson (u : CompilationUnit NodeId) : u.Doc u.toJson := by
  cases hs : u.source with
  | none =>
    rw [toJson, hs]
    exact .sourceless hs u.listsDoc_toJson
  | some s =>
    have hsource : OptionOf (fun s i => i = Json.str s) u.source (.str s) := by
      rw [hs]
      exact .present rfl
    rw [toJson, hs]
    exact .full hsource u.listsDoc_toJson .keyed

section

variable {u : CompilationUnit NodeId} {j : Json} {ds ss es : List Json}

theorem ListsDoc.plain (h : u.ListsDoc ds ss es) :
    Plain (.arr ds) ∧ Plain (.arr ss) ∧ Plain (.arr es) := by
  refine ⟨.arr fun i hi => ?_, .arr fun i hi => ?_, .arr fun i hi => ?_⟩
  · obtain ⟨d, -, hd⟩ := Json.exists_of_forall₂ h.declarations hi
    exact hd.plain
  · obtain ⟨s, -, hs⟩ := Json.exists_of_forall₂ h.scopes hi
    exact hs.plain
  · obtain ⟨e, -, he⟩ := Json.exists_of_forall₂ h.entries hi
    exact he.plain

theorem Doc.plain (h : u.Doc j) : Plain j := by
  cases h with
  | full ho hl h =>
    obtain ⟨hds, hss, hes⟩ := hl.plain
    have hjo : Plain _ := ho.plain fun s hs => hs ▸ .str s
    exact h.plain (by simp [Plain.str, hjo, hds, hss, hes])
  | sourceless ho hl =>
    obtain ⟨hds, hss, hes⟩ := hl.plain
    exact .obj (by simp [Plain.str, hds, hss, hes])

/-- What the reader of a unit finds in a document: the lists, and a field from which it reads the
source text. -/
theorem Doc.fields_eq (h : u.Doc j) :
    ∃ source ds ss es, u.ListsDoc ds ss es ∧
      Json.fields fieldNames j =
        some [some (.str u.file), source, some (.arr ds), some (.arr ss), some (.arr es)] ∧
      Json.withDefault none (Json.orNull Json.asString) source = some u.source ∧
      j.depth = max (Json.depths ds) (max (Json.depths ss) (Json.depths es)) + 2 := by
  cases h with
  | @full jo _ ds ss es ho hl h =>
    refine ⟨some jo, ds, ss, es, hl, h.fields_eq (by decide) rfl, ?_, ?_⟩
    · have := ho.orNull_eq (f := fun s => s) Json.asString rfl fun s hs => by rw [hs]; rfl
      simpa using this
    · have hjo : jo.depth = 0 := ho.depth_eq_zero fun s hs => by rw [hs, Json.depth]
      rw [h.depth_eq rfl]
      simp only [Json.depths, Json.depth, hjo]
      omega
  | @sourceless ds ss es ho hl =>
    refine ⟨none, ds, ss, es, hl, ?_, by rw [ho]; rfl, ?_⟩
    · simp [Json.fields, Json.only?, fieldNames]
    · simp only [Json.memberDepths, Json.depth]
      omega

/-- The unit that is read from a document of it. -/
theorem Doc.ofJson?_eq {room : Nat} (h : u.Doc j) (hroom : 6 ≤ room) :
    ofJson? room j =
      if j.depth ≤ room then
        some { u with
          entries := u.entries.map fun e => ⟨e.scope, e.expr.map some fun _ => none⟩ }
      else none := by
  obtain ⟨source, ds, ss, es, hl, hfields, hsource, hdepth⟩ := h.fields_eq
  have hds := Json.asList_eq_ite (f := fun d => d) (room - 2) hl.declarations
    fun d i hd => hd.ofJson?_eq (by omega)
  have hss := Json.asList_eq_ite (f := fun s => s) (room - 2) hl.scopes
    fun s i hs => hs.ofJson?_eq (by omega)
  have hes := Json.asList_eq_ite (room - 2) hl.entries
    fun e i he => he.ofJson?_eq (by omega)
  have hle : j.depth ≤ room ↔
      Json.depths ds ≤ room - 2 ∧ Json.depths ss ≤ room - 2 ∧ Json.depths es ≤ room - 2 := by
    rw [hdepth]
    omega
  rw [fieldNames] at hfields
  rw [ofJson?, hfields]
  simp only [Option.bind_eq_bind, Option.bind_some, hsource, Json.withDefault_some,
    Json.asString_str, hds, hss, hes, hle]
  by_cases h1 : Json.depths ds ≤ room - 2
  · by_cases h2 : Json.depths ss ≤ room - 2
    · by_cases h3 : Json.depths es ≤ room - 2
      · simp [h1, h2, h3]
      · simp [h1, h2, h3]
    · simp [h1, h2]
  · simp [h1]

end

/-! ## Printing and reading -/

section

variable {ι : Type}

/-- The same unit with no expression bound to a scope. -/
def unbound (u : CompilationUnit ι) : CompilationUnit ι :=
  { u with entries := u.entries.map fun e => ⟨e.scope, e.expr.unbound⟩ }

/-- What is left of a unit in its document: no expression is bound, and a file name that is missing
is the path of the document. -/
def inDocument (path : String) (u : CompilationUnit ι) : CompilationUnit ι :=
  { u.unbound with file := if u.file = "" then path else u.file }

end

theorem inFile_asRead (u : CompilationUnit NodeId) (path : String) :
    inFile path { u with
      entries := u.entries.map fun e => ⟨e.scope, e.expr.map some fun _ => none⟩ } =
      (u.inDocument path).mapId some := by
  have hentries : (u.entries.map fun e => ⟨e.scope, e.expr.unbound⟩).map (Entry.mapId some) =
      u.entries.map fun e => ⟨e.scope, e.expr.map some fun _ => none⟩ := by
    rw [List.map_map]
    refine List.map_congr_left fun e _ => ?_
    rw [Function.comp_apply, Entry.mapId, Expr.mapId_unbound]
  rw [inFile, inDocument, mapId, unbound, hentries]
  split <;> rfl

theorem number_mapId_some (u : CompilationUnit NodeId) : (u.mapId some).number = pure u := by
  have hentry : ∀ e : Entry NodeId, (e.mapId some).number = pure e := by
    intro e
    rw [Entry.number, Entry.mapId, Expr.mapId, Expr.number_map_some]
    rfl
  have hentries : (u.entries.map (Entry.mapId some)).mapM Entry.number = pure u.entries := by
    rw [List.mapM_map, show Entry.number ∘ Entry.mapId some = pure from funext hentry]
    simpa using List.mapM_pure (m := StateM Supply) (l := u.entries) (f := fun e => e)
  rw [number, mapId, hentries]
  rfl

/-- **The text of a unit reads back as the unit**, without its scopes and with the path for a file
name that is missing, exactly if the text nests at most 127 deep.  Every id is in the text, so that
no id is drawn for it; and since scopes are not, binding an expression does not change its text. -/
theorem parse_render_eq (u : CompilationUnit NodeId) (path : String) :
    (parse u.render path =
      if Json.nesting u.render ≤ 127 then some ((u.inDocument path).mapId some) else none) ∧
    ((u.inDocument path).mapId some).number = pure (u.inDocument path) ∧
    ∀ (e : Expr NodeId) (s : ScopeId), (e.bind s).toJson.render = e.toJson.render := by
  have hdoc := u.doc_toJson
  refine ⟨?_, number_mapId_some _, fun e s => by rw [Expr.bind, Expr.toJson_map]⟩
  rw [render, Json.nesting_render hdoc.plain, parse, Json.parse_render hdoc.plain,
    Option.bind_some, hdoc.ofJson?_eq (by decide), Json.maxDepth]
  split
  · rw [Option.map_some, inFile_asRead]
  · rfl

/-- **All documents of a unit read as the same unit**, whichever of its records are objects and
whichever are arrays.  A document has a text, which nests as deep as the document does; and every
text that denotes the document is read as the unit if it nests at most 127 deep, and not at all
otherwise. -/
theorem parse_of_doc (u : CompilationUnit NodeId) (path : String) (j : Json) (h : u.Doc j) :
    Json.parse j.render = some j ∧ Json.nesting j.render = j.depth ∧
    (∀ text, Json.parse text = some j →
      parse text path =
        if j.depth ≤ 127 then some ((u.inDocument path).mapId some) else none) ∧
    ((u.inDocument path).mapId some).number = pure (u.inDocument path) := by
  refine ⟨Json.parse_render h.plain, Json.nesting_render h.plain, fun text htext => ?_,
    number_mapId_some _⟩
  rw [parse, htext, Option.bind_some, h.ofJson?_eq (by decide), Json.maxDepth]
  split
  · rw [Option.map_some, inFile_asRead]
  · rfl

/-- A unit with a declaration, a scope and a call, written with both forms at every level: the unit
is an array, the entry in it an object, the call an array again, and what is called an object. -/
theorem parse_of_doc_mixed :
    let empty : List Json := (.str "" : Json) :: List.replicate 6 (Json.nat 0)
    let u : CompilationUnit NodeId :=
      { declarations := [{ name := "f", kind := .var (.lambda [] (.named "i")) }],
        scopes := [⟨⟨0⟩, []⟩],
        entries := [⟨⟨1⟩, .call { id := ⟨1⟩ } (.ident { id := ⟨2⟩ } "f") []⟩] }
    let j : Json :=
      .arr [.str "", .null,
        .arr [.obj [("span", .arr empty), ("name", .str "f"), ("kind", .str "variable"),
          ("ty", .arr [.str "Lambda", .arr [],
            .obj [("type", .str "Secondary"), ("name", .str "i")]])]],
        .arr [.arr [.nat 0, .arr []]],
        .arr [.obj [("scope", .nat 1), ("expr", .arr [.str "Call", .nat 1, .arr empty,
          .obj [("type", .str "Variable"), ("id", .nat 2), ("span", .arr empty),
            ("name", .str "f")], .arr []])]]]
    u.Doc j ∧ parse j.render "a" = some ((u.inDocument "a").mapId some) := by
  intro empty u j
  have hspan : Span.Doc {} (.arr empty) := RecordOf.positional
  have hdoc : u.Doc j := by
    refine .full .absent ⟨.cons ?_ .nil, .cons ?_ .nil, .cons ?_ .nil⟩ .positional
    · exact .mk hspan (.var (.lambda .nil (.named .keyed) .positional))
    · exact .mk .nil .positional
    · exact .mk (.call hspan (.ident hspan .keyed) .nil .positional) .keyed
  obtain ⟨htext, -, hread, -⟩ := parse_of_doc u "a" j hdoc
  exact ⟨hdoc, (hread _ htext).trans (if_pos (by decide))⟩

end CompilationUnit

end UnitCheck
