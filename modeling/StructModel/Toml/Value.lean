import StructModel.Decimal.Double

/-!
# Values and tables of a TOML document

Tables keep their entries in the order of the document. How a table came to be says what may still
be added to it: a header adds to a table that only deeper headers have implied, a dotted key to one
that dotted keys have made.
-/

namespace StructModel.Toml

open StructModel.Decimal

/-- How a table has come to be. -/
inductive Origin where
  /-- By a header of its own, as an inline table, or as the document itself. -/
  | defined
  /-- By a header for a table within it. -/
  | implied
  /-- By a dotted key. -/
  | dotted
  deriving DecidableEq, Repr

mutual

inductive Value where
  | string (s : String)
  | integer (n : Int)
  | double (d : Double)
  | boolean (b : Bool)
  | datetime
  | array (items : List Value)
  | inline (origin : Origin) (entries : List Entry)
  | table (origin : Origin) (entries : List Entry)
  | tables (ts : List (List Entry))

structure Entry where
  key : String
  value : Value

end

instance : Inhabited Value := ⟨.datetime⟩

def lookup? (key : String) (entries : List Entry) : Option Value :=
  (entries.find? fun e => e.key == key).map Entry.value

/-- Give a key another value where it stands, or put it last. -/
def assign (key : String) (v : Value) : List Entry → List Entry
  | [] => [⟨key, v⟩]
  | e :: es => if e.key = key then ⟨key, v⟩ :: es else e :: assign key v es

def remove (key : String) (entries : List Entry) : List Entry :=
  entries.filter fun e => e.key != key

/-- A table that is being changed. -/
structure Scope where
  origin : Origin
  entries : List Entry

def Scope.set (t : Scope) (key : String) (v : Value) : Scope :=
  { t with entries := assign key v t.entries }

/-- Change the table at a path of headers, making the tables on the way. The last table of an array
of tables stands for the array. The change may also yield something it has found. -/
def changeAt {α : Type} (change : Scope → Option (Scope × α)) :
    List String → Scope → Option (Scope × α)
  | [], t => change t
  | k :: ks, t =>
    match lookup? k t.entries with
    | none =>
      (changeAt change ks ⟨.implied, []⟩).map fun (s, a) =>
        (t.set k (.table s.origin s.entries), a)
    | some (.table origin es) =>
      (changeAt change ks ⟨origin, es⟩).map fun (s, a) =>
        (t.set k (.table s.origin s.entries), a)
    | some (.tables ts) =>
      match ts.getLast? with
      | none => none
      | some es =>
        (changeAt change ks ⟨.defined, es⟩).map fun (s, a) =>
          (t.set k (.tables (ts.dropLast ++ [s.entries])), a)
    | some _ => none

/-- Give a key that is new a value. -/
def addNew (key : String) (v : Value) (t : Scope) : Option Scope :=
  match lookup? key t.entries with
  | some _ => none
  | none => some { t with entries := t.entries ++ [⟨key, v⟩] }

/-- Add a value under a dotted key. All tables on the way but the first must be made by dotted keys,
or be implied by headers, and the last one by dotted keys. -/
def addDotted (key : String) (v : Value) : List String → Scope → Option Scope
  | [], t => addNew key v t
  | [k], t =>
    match lookup? k t.entries with
    | none => some { t with entries := t.entries ++ [⟨k, .table .dotted [⟨key, v⟩]⟩] }
    | some (.table .dotted es) =>
      (addNew key v ⟨.dotted, es⟩).map fun s =>
        t.set k (.table .dotted s.entries)
    | some _ => none
  | k :: ks, t =>
    match lookup? k t.entries with
    | none =>
      (addDotted key v ks ⟨.dotted, []⟩).map fun s =>
        t.set k (.table .dotted s.entries)
    | some (.table origin es) =>
      if origin = .defined then none
      else
        (addDotted key v ks ⟨origin, es⟩).map fun s =>
          t.set k (.table origin s.entries)
    | some (.tables ts) =>
      match ts.getLast? with
      | none => none
      | some es =>
        (addDotted key v ks ⟨.defined, es⟩).map fun s =>
          t.set k (.tables (ts.dropLast ++ [s.entries]))
    | some _ => none

/-- Add a value under a dotted key of an inline table. -/
def addInline (key : String) (v : Value) : List String → List Entry → Option (List Entry)
  | [], es => (addNew key v ⟨.defined, es⟩).map Scope.entries
  | k :: ks, es =>
    match lookup? k es with
    | none => (addInline key v ks []).map fun inner => assign k (.inline .dotted inner) es
    | some (.inline .dotted inner) =>
      (addInline key v ks inner).map fun inner => assign k (.inline .dotted inner) es
    | some _ => none

/-- A document that is being read: the tables before the last header, and the table of that header
with its path. Before the first header the table is the document itself. -/
structure Draft where
  root : Scope := ⟨.defined, []⟩
  current : Scope := ⟨.defined, []⟩
  path : List String := []
  isArray : Bool := false

namespace Draft

/-- The document with the current table in its place. -/
def close (d : Draft) : Option Scope :=
  match d.path.getLast? with
  | none => some d.current
  | some key =>
    let put (parent : Scope) : Option (Scope × Unit) :=
      if d.isArray then
        match lookup? key parent.entries with
        | none => some (parent.set key (.tables [d.current.entries]), ())
        | some (.tables ts) => some (parent.set key (.tables (ts ++ [d.current.entries])), ())
        | some _ => none
      else (addNew key (.table .defined d.current.entries) parent).map fun s => (s, ())
    (changeAt put d.path.dropLast d.root).map Prod.fst

/-- Begin the table of a header. A table that is only implied goes on with what it holds. -/
def openTable (d : Draft) (path : List String) : Option Draft := do
  let root ← d.close
  let key ← path.getLast?
  let take (parent : Scope) : Option (Scope × List Entry) :=
    match lookup? key parent.entries with
    | none => some (parent, [])
    | some (.table .implied es) =>
      some ({ parent with entries := remove key parent.entries }, es)
    | some _ => none
  let (root, entries) ← changeAt take path.dropLast root
  return ⟨root, ⟨.defined, entries⟩, path, false⟩

/-- Begin a further table of an array of tables. -/
def openArray (d : Draft) (path : List String) : Option Draft := do
  let root ← d.close
  let key ← path.getLast?
  let check (parent : Scope) : Option (Scope × Unit) :=
    match lookup? key parent.entries with
    | none => some (parent, ())
    | some (.tables _) => some (parent, ())
    | some _ => none
  let (root, _) ← changeAt check path.dropLast root
  return ⟨root, ⟨.defined, []⟩, path, true⟩

def add (d : Draft) (path : List String) (key : String) (v : Value) : Option Draft :=
  (addDotted key v path d.current).map fun s => { d with current := s }

end Draft

end StructModel.Toml
