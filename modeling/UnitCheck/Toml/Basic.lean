/-!
# TOML tables

A TOML document is a table, put together from headers, dotted keys and inline tables.  No key may be
defined twice, and a table may be spread over the document only in certain ways:

* a dotted key reaches into tables that dotted keys have made, and a header does not open these;
* a header opens a table that so far was only on the way to another one, and does so once;
* an inline table is complete where it stands.

So every table remembers where it came from (`Origin`), and `Table.insert`, `Table.openAt` and
`Table.appendAt` say what a key and the two kinds of header do to the tables above them.

What is written in a document is a list of statements (`Statement`).  An inline table is `Written`
as its entries, and only `Written.value?` puts these together.

Of the scalars only strings and booleans have a value here; numbers and dates are kept as kinds.
-/

set_option autoImplicit false

namespace UnitCheck

namespace Toml

/-- What has brought a table into being. -/
inductive Origin where
  /-- An inline table. -/
  | inline
  /-- A header of its own. -/
  | header
  /-- The header of a table inside it. -/
  | implied
  /-- A dotted key. -/
  | dotted
deriving DecidableEq

/-- A value that is not a container. -/
inductive Scalar where
  | boolean (b : Bool)
  | string (s : String)
  | number
  | moment
deriving DecidableEq

/-- A TOML value. -/
inductive Value where
  | scalar (s : Scalar)
  | array (items : List Value)
  | table (origin : Origin) (entries : List (String × Value))
  /-- Tables under a header with double brackets, the last one first. -/
  | tables (last : List (String × Value)) (before : List (List (String × Value)))

/-- The entries of a table, in the order they were made. -/
abbrev Table : Type := List (String × Value)

namespace Table

/-- Give a key that a table has another value. -/
def replace (t : Table) (key : String) (v : Value) : Table :=
  t.map fun e => if e.1 == key then (key, v) else e

/-- Add a key that a table does not have. -/
def addNew (t : Table) (key : String) (v : Value) : Option Table :=
  if (t.lookup key).isSome then none else some (t ++ [(key, v)])

/-- Define a key, behind a path of dotted keys.  The last table of the path must be made by dotted
keys; tables above it may also be implied. -/
def insert : List String → String → Value → Table → Option Table
  | [], key, v, t => t.addNew key v
  | p :: path, key, v, t =>
    match t.lookup p with
    | none => do
      let inner ← insert path key v []
      return t ++ [(p, .table .dotted inner)]
    | some (.table .dotted inner) => do
      let inner ← insert path key v inner
      return t.replace p (.table .dotted inner)
    | some (.table .implied inner) => do
      if path = [] then none
      let inner ← insert path key v inner
      return t.replace p (.table .implied inner)
    | some (.tables last before) => do
      if path = [] then none
      let last ← insert path key v last
      return t.replace p (.tables last before)
    | some _ => none

/-- Change the table that a header's path leads to.  Tables on the way are implied where they do not
exist, and of several under one header the last is meant. -/
def changeAt (t : Table) (path : List String) (change : Table → Option Table) : Option Table :=
  match path with
  | [] => change t
  | p :: path =>
    match t.lookup p with
    | none => do
      let inner ← changeAt [] path change
      return t ++ [(p, .table .implied inner)]
    | some (.table .inline _) => none
    | some (.table origin inner) => do
      let inner ← changeAt inner path change
      return t.replace p (.table origin inner)
    | some (.tables last before) => do
      let last ← changeAt last path change
      return t.replace p (.tables last before)
    | some _ => none

/-- Open the table with a key: a new one, or one that was only implied. -/
def openTable (key : String) (t : Table) : Option Table :=
  match t.lookup key with
  | none => some (t ++ [(key, .table .header [])])
  | some (.table .implied inner) => some (t.replace key (.table .header inner))
  | some _ => none

/-- Open one more table under a key. -/
def appendTable (key : String) (t : Table) : Option Table :=
  match t.lookup key with
  | none => some (t ++ [(key, .tables [] [])])
  | some (.tables last before) => some (t.replace key (.tables [] (last :: before)))
  | some _ => none

/-- What the header of a table does. -/
def openAt (t : Table) (path : List String) (key : String) : Option Table :=
  t.changeAt path (openTable key)

/-- What a header with double brackets does. -/
def appendAt (t : Table) (path : List String) (key : String) : Option Table :=
  t.changeAt path (appendTable key)

end Table

/-- How deep arrays and inline tables may nest, and how many parts a key may have: each part but the
last leads one table deeper. -/
def maxDepth : Nat := 79

/-- A key with the dotted keys in front of it. -/
structure Key where
  path : List String
  last : String

/-- A value as it is written. -/
inductive Written where
  | scalar (s : Scalar)
  | array (items : List Written)
  | inline (entries : List (Key × Written))

mutual

/-- The value of what is written, `none` if an inline table in it defines a key twice. -/
def Written.value? : Written → Option Value
  | .scalar s => some (.scalar s)
  | .array items => (Written.values? items).map .array
  | .inline entries => (Written.defineAll entries []).map (.table .inline)

/-- The values of a list, if each of them has one. -/
def Written.values? : List Written → Option (List Value)
  | [] => some []
  | w :: ws => do
    let v ← w.value?
    let vs ← Written.values? ws
    return v :: vs

/-- Define keys in a table, one after the other. -/
def Written.defineAll : List (Key × Written) → Table → Option Table
  | [], t => some t
  | (key, w) :: entries, t => do
    let v ← w.value?
    let t ← t.insert key.path key.last v
    Written.defineAll entries t

end

/-- The parts of a document. -/
inductive Statement where
  | entry (key : Key) (value : Written)
  | table (key : Key)
  | tables (key : Key)

/-- A document read so far: its table, and the path to the table that entries go to. -/
structure Document where
  root : Table := []
  current : List String := []

namespace Document

/-- Add a statement, `none` if it defines something a second time. -/
def add (d : Document) : Statement → Option Document
  | .entry key written => do
    let v ← written.value?
    let t ← d.root.changeAt d.current (Table.insert key.path key.last v)
    return { d with root := t }
  | .table key => (d.root.openAt key.path key.last).map fun t => ⟨t, key.path ++ [key.last]⟩
  | .tables key => (d.root.appendAt key.path key.last).map fun t => ⟨t, key.path ++ [key.last]⟩

end Document

end Toml

end UnitCheck
