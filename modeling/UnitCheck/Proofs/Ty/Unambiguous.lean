import UnitCheck.Ty

/-!
# Names that tell types apart

The name of a type has no brackets around lambda types, and `>` ends both an argument and an arrow.
Among all types different ones may thus have the same name: `a->b->c` is the name of a lambda type
with a lambda type as its result, and also of one with a lambda type as its parameter.  They do not
if a lambda type never stands as a parameter of another one, nor as a container
(`Ty.FirstOrder`, `eq_of_name_eq`).

The proof reads two names from the left at once.  `Ty.Told follow a b` says that this tells `a` from
`b` and leaves the same rest, if the rest is known to begin in a certain way.  A whole type goes on
to the end of the text or to the `>` that closes it (`Closes`).  A type that is no lambda type may
have a `,` or an arrow behind it as well (`Ends`), and that is how a lambda type gives itself away.
Containers are nested on the left, where the names begin; so a type that is no lambda type is taken
as a name with a list of arguments (`Ty.HasArgs`).
-/

set_option autoImplicit false

namespace UnitCheck

namespace Ty

/-- The characters that a name of a leaf must not have. -/
def special : List Char := ['<', '>', ',', '-']

/-- A name that a leaf may have. -/
def IsLeafName (n : String) : Prop := n ≠ "" ∧ ∀ c ∈ n.toList, c ∉ special

/-- Leaves have proper names, and lambda types are neither parameters of lambda types nor
containers.  They may be results and arguments, at any depth. -/
inductive FirstOrder : Ty → Prop
  | named {n : String} (hn : IsLeafName n) : FirstOrder (.named n)
  | applied {container parameter : Ty} (hc : FirstOrder container)
    (hnot : container.isLambda = false) (hp : FirstOrder parameter) :
    FirstOrder (.applied container parameter)
  | lambda {params : List Ty} {result : Ty} (hps : ∀ p ∈ params, FirstOrder p)
    (hnot : ∀ p ∈ params, p.isLambda = false) (hr : FirstOrder result) :
    FirstOrder (.lambda params result)

/-! ## Texts -/

/-- The characters of a name. -/
def chars (t : Ty) : List Char := t.name.toList

/-- The texts of types, each with something before and behind it. -/
def items (first : Char) (last : List Char) (ts : List Ty) : List Char :=
  ts.flatMap fun t => first :: (t.chars ++ last)

/-- The parameters of a lambda type. -/
def paramChars : List Ty → List Char
  | [] => []
  | p :: ps => p.chars ++ items ',' [] ps

/-- A name with arguments. -/
def applyAll (n : String) (ts : List Ty) : Ty := ts.foldl .applied (.named n)

theorem items_cons (first : Char) (last : List Char) (t : Ty) (ts : List Ty) :
    items first last (t :: ts) = first :: (t.chars ++ (last ++ items first last ts)) := by
  simp [items]

theorem chars_applied (container parameter : Ty) :
    (applied container parameter).chars = container.chars ++ '<' :: (parameter.chars ++ ['>']) := by
  simp [chars, name]

theorem intercalate_names (ps : List Ty) :
    [','].intercalate ((names ps).map String.toList) = paramChars ps := by
  cases ps with
  | nil => rfl
  | cons p ps =>
    induction ps generalizing p with
    | nil => simp [names, paramChars, items, chars]
    | cons q ps ih =>
      have hrest := ih q
      rw [names, List.map_cons] at hrest
      simp [names, List.intercalate_cons_cons, hrest, paramChars, items_cons, chars]

theorem chars_lambda (params : List Ty) (result : Ty) :
    (lambda params result).chars = paramChars params ++ '-' :: '>' :: result.chars := by
  simp [chars, name, intercalate_names]

theorem chars_foldl_applied (t : Ty) (ts : List Ty) :
    (ts.foldl .applied t).chars = t.chars ++ items '<' ['>'] ts := by
  induction ts generalizing t with
  | nil => simp [items]
  | cons u ts ih => simp [ih, chars_applied, items_cons]

theorem chars_applyAll (n : String) (ts : List Ty) :
    (applyAll n ts).chars = n.toList ++ items '<' ['>'] ts := chars_foldl_applied (.named n) ts

/-! ## What follows a text -/

/-- What may follow a type: nothing, or the end of the argument that it is. -/
def Closes (rest : List Char) : Prop := ∀ c ∈ rest.head?, c = '>'

/-- What may follow a type that is no lambda type: a parameter may have another one or the arrow
behind it. -/
def Ends (rest : List Char) : Prop := ∀ c ∈ rest.head?, c = '>' ∨ c = ',' ∨ c = '-'

/-- Two types are told apart by their texts, and so is what follows them. -/
def Told (follow : List Char → Prop) (a b : Ty) : Prop :=
  ∀ ⦃r r' : List Char⦄, follow r → follow r' → a.chars ++ r = b.chars ++ r' → a = b ∧ r = r'

theorem Told.symm {follow : List Char → Prop} {a b : Ty} (h : Told follow a b) :
    Told follow b a := fun _ _ hr hr' heq =>
  (h hr' hr heq.symm).imp Eq.symm Eq.symm

theorem closes_nil : Closes [] := by simp [Closes]

theorem closes_cons (rest : List Char) : Closes ('>' :: rest) := by simp [Closes]

theorem Closes.ends {rest : List Char} (h : Closes rest) : Ends rest :=
  fun c hc => .inl (h c hc)

theorem Ends.mem_special {rest : List Char} (h : Ends rest) : ∀ c ∈ rest.head?, c ∈ special := by
  intro c hc
  rcases h c hc with rfl | rfl | rfl <;> simp [special]

theorem Ends.ne_open {rest : List Char} (h : Ends rest) : ∀ c ∈ rest.head?, c ≠ '<' := by
  intro c hc
  rcases h c hc with rfl | rfl | rfl <;> decide

theorem ends_params (ps : List Ty) (rest : List Char) : Ends (items ',' [] ps ++ '-' :: rest) := by
  cases ps with
  | nil => simp [Ends, items]
  | cons p ps => simp [Ends, items_cons]

theorem not_closes_params (ps : List Ty) (rest : List Char) :
    ¬Closes (items ',' [] ps ++ '-' :: rest) := by
  cases ps with
  | nil => simp [Closes, items]
  | cons p ps => simp [Closes, items_cons]

/-! ## Leaves and lists -/

/-- A name is read up to the first special character. -/
theorem takeWhile_not_special {cs rest : List Char} (hcs : ∀ c ∈ cs, c ∉ special)
    (hrest : ∀ c ∈ rest.head?, c ∈ special) :
    (cs ++ rest).takeWhile (fun c => !(special.contains c)) = cs := by
  rw [List.takeWhile_append_of_pos (by simpa using hcs)]
  cases rest with
  | nil => simp
  | cons c rest =>
    have hc : c ∈ special := hrest c rfl
    simp [hc]

theorem append_inj_of_isLeafName {m n : String} {r r' : List Char} (hm : IsLeafName m)
    (hn : IsLeafName n) (hr : ∀ c ∈ r.head?, c ∈ special) (hr' : ∀ c ∈ r'.head?, c ∈ special)
    (heq : m.toList ++ r = n.toList ++ r') : m = n ∧ r = r' := by
  have hchars : m.toList = n.toList := by
    rw [← takeWhile_not_special hm.2 hr, heq, takeWhile_not_special hn.2 hr']
  rw [hchars, List.append_cancel_left_eq] at heq
  exact ⟨String.toList_inj.1 hchars, heq⟩

/-- **Lists of types are told apart** if their members are, by reading them one by one. -/
theorem items_append_inj {first : Char} {last : List Char} {follow : List Char → Prop}
    {ts us : List Ty} {r r' : List Char} (htold : ∀ t ∈ ts, ∀ u ∈ us, Told follow t u)
    (hfollow : ∀ vs, follow (last ++ (items first last vs ++ r)))
    (hfollow' : ∀ vs, follow (last ++ (items first last vs ++ r')))
    (hr : ∀ c ∈ r.head?, c ≠ first) (hr' : ∀ c ∈ r'.head?, c ≠ first)
    (heq : items first last ts ++ r = items first last us ++ r') : ts = us ∧ r = r' := by
  -- the next character tells whether there is another member, as no rest begins with `first`
  induction ts generalizing us with
  | nil =>
    cases us with
    | nil => exact ⟨rfl, heq⟩
    | cons u us =>
      rw [items_cons] at heq
      subst heq
      exact absurd rfl (hr first rfl)
  | cons t ts ih =>
    rw [items_cons] at heq
    cases us with
    | nil =>
      subst heq
      exact absurd rfl (hr' first rfl)
    | cons u us =>
      rw [items_cons] at heq
      simp only [List.cons_append, List.append_assoc, List.cons.injEq, true_and] at heq
      obtain ⟨rfl, hrest⟩ := htold t List.mem_cons_self u List.mem_cons_self
        (hfollow ts) (hfollow' us) heq
      rw [List.append_cancel_left_eq] at hrest
      obtain ⟨rfl, rfl⟩ := ih (fun t ht u hu =>
        htold t (List.mem_cons_of_mem _ ht) u (List.mem_cons_of_mem _ hu)) hrest
      exact ⟨rfl, rfl⟩

/-! ## Names with arguments -/

/-- A type that is no lambda type, as a name with arguments that have a property. -/
def HasArgs (P : Ty → Prop) (t : Ty) : Prop :=
  ∃ n ts, IsLeafName n ∧ (∀ u ∈ ts, P u) ∧ t = applyAll n ts

variable {P : Ty → Prop} {a b : Ty}

theorem hasArgs_named {n : String} (hn : IsLeafName n) : HasArgs P (.named n) :=
  ⟨n, [], hn, by simp, rfl⟩

theorem HasArgs.applied (ha : HasArgs P a) (hb : P b) : HasArgs P (.applied a b) := by
  obtain ⟨n, ts, hn, hts, rfl⟩ := ha
  refine ⟨n, ts ++ [b], hn, ?_, ?_⟩
  · rw [List.forall_mem_append]
    exact ⟨hts, by simpa using hb⟩
  · rw [applyAll, applyAll, List.foldl_append]
    rfl

/-- A name does not begin with an arrow. -/
theorem HasArgs.chars_append_ne (ha : HasArgs P a) (r r' : List Char) :
    a.chars ++ r ≠ '-' :: r' := by
  obtain ⟨n, ts, ⟨hne, hn⟩, -, rfl⟩ := ha
  rw [chars_applyAll]
  cases hchars : n.toList with
  | nil => exact absurd (String.toList_eq_nil_iff.1 hchars) hne
  | cons c cs =>
    intro heq
    have hc : c = '-' := (List.cons.inj heq).1
    refine hn c (by rw [hchars]; exact List.mem_cons_self) ?_
    rw [hc]
    decide

theorem FirstOrder.hasArgs (ha : a.FirstOrder) (hnot : a.isLambda = false) :
    HasArgs FirstOrder a := by
  induction ha with
  | named hn => exact hasArgs_named hn
  | applied _ hc hp ihc _ => exact (ihc hc).applied hp
  | lambda => cases hnot

/-- A type is a name with arguments, or a lambda type whose parameters are such. -/
theorem FirstOrder.hasArgs_or_lambda (ha : a.FirstOrder) :
    HasArgs FirstOrder a ∨ ∃ params result, a = .lambda params result ∧
      (∀ p ∈ params, HasArgs FirstOrder p) ∧ result.FirstOrder := by
  cases ha with
  | named hn => exact .inl (hasArgs_named hn)
  | applied hc hnot hp => exact .inl ((hc.hasArgs hnot).applied hp)
  | lambda hps hnot hr => exact .inr ⟨_, _, rfl, fun p hp => (hps p hp).hasArgs (hnot p hp), hr⟩

/-- The text of a type tells it from all others. -/
def Readable (t : Ty) : Prop := ∀ u : Ty, u.FirstOrder → Told Closes t u

/-- **Types that are no lambda types are told apart** if their arguments are. -/
theorem HasArgs.told (ha : HasArgs Readable a) (hb : HasArgs FirstOrder b) : Told Ends a b := by
  intro r r' hr hr' heq
  obtain ⟨m, ts, hm, hts, rfl⟩ := ha
  obtain ⟨n, us, hn, hus, rfl⟩ := hb
  -- the name ends where the first argument begins, or else where the text does
  have hspecial : ∀ {rest : List Char} (vs : List Ty), Ends rest →
      ∀ c ∈ (items '<' ['>'] vs ++ rest).head?, c ∈ special := by
    intro rest vs hrest
    cases vs with
    | nil => exact hrest.mem_special
    | cons v vs => simp [items_cons, special]
  rw [chars_applyAll, chars_applyAll, List.append_assoc, List.append_assoc] at heq
  obtain ⟨rfl, hargs⟩ := append_inj_of_isLeafName hm hn (hspecial ts hr) (hspecial us hr') heq
  obtain ⟨rfl, rfl⟩ := items_append_inj (fun t ht u hu => hts t ht u (hus u hu))
    (fun _ => closes_cons _) (fun _ => closes_cons _) hr.ne_open hr'.ne_open hargs
  exact ⟨rfl, rfl⟩

/-! ## Lambda types -/

theorem paramChars_append_inj {ps qs : List Ty} {r r' : List Char}
    (hps : ∀ p ∈ ps, HasArgs Readable p) (hqs : ∀ q ∈ qs, HasArgs FirstOrder q)
    (heq : paramChars ps ++ '-' :: r = paramChars qs ++ '-' :: r') : ps = qs ∧ r = r' := by
  cases ps with
  | nil =>
    cases qs with
    | nil => exact ⟨rfl, (List.cons.inj heq).2⟩
    | cons q qs =>
      rw [paramChars, paramChars, List.append_assoc] at heq
      exact absurd heq.symm ((hqs q List.mem_cons_self).chars_append_ne _ _)
  | cons p ps =>
    rw [paramChars, List.append_assoc] at heq
    cases qs with
    | nil => exact absurd heq ((hps p List.mem_cons_self).chars_append_ne _ _)
    | cons q qs =>
      rw [paramChars, List.append_assoc] at heq
      have htold : ∀ t ∈ p :: ps, ∀ u ∈ q :: qs, Told Ends t u :=
        fun t ht u hu => (hps t ht).told (hqs u hu)
      obtain ⟨rfl, hrest⟩ := htold p List.mem_cons_self q List.mem_cons_self (ends_params ps r)
        (ends_params qs r') heq
      obtain ⟨rfl, harrow⟩ := items_append_inj (fun t ht u hu =>
          htold t (List.mem_cons_of_mem _ ht) u (List.mem_cons_of_mem _ hu))
        (fun vs => ends_params vs r) (fun vs => ends_params vs r') (by simp) (by simp) hrest
      exact ⟨rfl, (List.cons.inj harrow).2⟩

/-- A lambda type is told from a type that is none by what follows its first parameter. -/
theorem paramChars_append_ne {ps : List Ty} {r r' : List Char} (htold : ∀ p ∈ ps, Told Ends p a)
    (ha : HasArgs P a) (hr' : Closes r') : paramChars ps ++ '-' :: r ≠ a.chars ++ r' := by
  intro heq
  cases ps with
  | nil => exact ha.chars_append_ne r' r heq.symm
  | cons p ps =>
    rw [paramChars, List.append_assoc] at heq
    obtain ⟨-, rfl⟩ := htold p List.mem_cons_self (ends_params ps r) hr'.ends heq
    exact not_closes_params ps r hr'

/-! ## All types -/

theorem HasArgs.readable (ha : HasArgs Readable a) : a.Readable := by
  intro b hb r r' hr hr' heq
  rcases hb.hasArgs_or_lambda with hb | ⟨qs, s, rfl, hqs, -⟩
  · exact ha.told hb hr.ends hr'.ends heq
  · rw [chars_lambda, List.append_assoc] at heq
    have htold : ∀ q ∈ qs, Told Ends q a := fun q hq => (ha.told (hqs q hq)).symm
    exact absurd heq.symm (paramChars_append_ne htold ha hr)

theorem readable_lambda {params : List Ty} {result : Ty}
    (hps : ∀ p ∈ params, HasArgs Readable p) (hresult : result.Readable) :
    (lambda params result).Readable := by
  intro b hb r r' hr hr' heq
  rw [chars_lambda, List.append_assoc] at heq
  rcases hb.hasArgs_or_lambda with hb | ⟨qs, s, rfl, hqs, hs⟩
  · exact absurd heq (paramChars_append_ne (fun p hp => (hps p hp).told hb) hb hr')
  · rw [chars_lambda, List.append_assoc] at heq
    obtain ⟨rfl, hrest⟩ := paramChars_append_inj hps hqs heq
    obtain ⟨rfl, rfl⟩ := hresult s hs hr hr' (List.cons.inj hrest).2
    exact ⟨rfl, rfl⟩

/-- **Every type of the fragment can be read back from its text**, and so can the arguments of one
that is no lambda type. -/
theorem FirstOrder.readable (ha : a.FirstOrder) :
    a.Readable ∧ (a.isLambda = false → HasArgs Readable a) := by
  -- that a container is readable is not enough for what it contains: its arguments have to be
  induction ha with
  | named hn =>
    have hargs := hasArgs_named (P := Readable) hn
    exact ⟨hargs.readable, fun _ => hargs⟩
  | applied _ hnot _ ihc ihp =>
    have hargs := (ihc.2 hnot).applied ihp.1
    exact ⟨hargs.readable, fun _ => hargs⟩
  | lambda _ hnot _ ihps ihr =>
    refine ⟨readable_lambda (fun p hp => (ihps p hp).2 (hnot p hp)) ihr.1, fun h => ?_⟩
    cases h

/-- **Names are unambiguous** where leaves have proper names and no lambda type is a parameter of a
lambda type or a container: types with the same name are the same. -/
theorem eq_of_name_eq (a b : Ty) (ha : a.FirstOrder) (hb : b.FirstOrder) (h : a.name = b.name) :
    a = b := by
  have heq : a.chars ++ [] = b.chars ++ [] := by rw [chars, chars, h]
  exact (ha.readable.1 b hb closes_nil closes_nil heq).1

/-- A lambda type as an argument, with another one as its result, and one without parameters inside
a parameter.  The first leaf is given once by its bits and once by its name. -/
theorem eq_of_name_eq_nested :
    let thunk : Ty := .applied (.named "M") (.lambda [] (.named "b"))
    let pair (first : Ty) : Ty :=
      .applied (.named "L") (.lambda [first, thunk] (.lambda [.named "c"] (.named "d")))
    let a := pair (int true 8)
    let b := pair (.named "i8")
    a.FirstOrder ∧ b.FirstOrder ∧ a.name = b.name ∧ b.name = "L<i8,M<->b>->c->d>" ∧ a = b := by
  intro thunk pair a b
  have hnames : ∀ n ∈ ["L", "M", "i8", "b", "c", "d"], IsLeafName n := by
    simp [IsLeafName, special]
  have hleaf : ∀ n ∈ ["L", "M", "i8", "b", "c", "d"], FirstOrder (.named n) :=
    fun n hn => .named (hnames n hn)
  have hthunk : thunk.FirstOrder :=
    .applied (hleaf "M" (by simp)) rfl (.lambda (by simp) (by simp) (hleaf "b" (by simp)))
  have hpair : ∀ first : Ty, first.FirstOrder → first.isLambda = false →
      (pair first).FirstOrder := by
    intro first hfirst hnot
    refine .applied (hleaf "L" (by simp)) rfl (.lambda ?_ ?_ (.lambda ?_ ?_ (hleaf "d" (by simp))))
    · simpa using ⟨hfirst, hthunk⟩
    · simpa using ⟨hnot, rfl⟩
    · simpa using hleaf "c" (by simp)
    · simp [isLambda, result?]
  have hint : int true 8 = .named "i8" := by decide +kernel
  have hb : b.FirstOrder := hpair _ (hleaf "i8" (by simp)) rfl
  have ha : a.FirstOrder := hpair _ (hint ▸ hleaf "i8" (by simp)) rfl
  have hname : a.name = b.name := by decide +kernel
  exact ⟨ha, hb, hname, by decide +kernel, eq_of_name_eq a b ha hb hname⟩

end Ty

end UnitCheck
