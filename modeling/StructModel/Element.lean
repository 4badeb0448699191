/-!
# Elements and type models

An element is the shape in which a value is serialized. A type model names the element of one
declaration; the root of an extracted one is an optional aggregate.
-/

namespace StructModel

inductive BaseKind where
  | int | int8 | int16 | int32 | int64
  | uint | uint8 | uint16 | uint32 | uint64
  | float32 | float64 | complex64 | complex128
  | string | bool
  /-- A sequence of bytes. -/
  | bytes
  /-- A map from strings to strings. -/
  | mapStrStr
  /-- A map from strings to values of any shape. -/
  | mapStrIntf
  deriving DecidableEq, Repr

namespace BaseKind

/-- The identifiers that name a base kind. A byte is an unsigned and a rune a signed integer. -/
def table : List (String × BaseKind) :=
  [("int", int), ("int8", int8), ("int16", int16), ("int32", int32), ("int64", int64),
    ("uint", uint), ("uint8", uint8), ("uint16", uint16), ("uint32", uint32), ("uint64", uint64),
    ("float32", float32), ("float64", float64), ("complex64", complex64),
    ("complex128", complex128), ("string", string), ("bool", bool), ("byte", uint8),
    ("rune", int32)]

def ofIdent? (name : String) : Option BaseKind := table.lookup name

end BaseKind

mutual

inductive Element where
  | base (kind : BaseKind)
  | sequence (item : Element)
  | optional (value : Element)
  | aggregate (fields : List Field)
  /-- A named type that is left to be resolved later. -/
  | deferred (name : String)

/-- The source name is that of the field, the output key the one it is serialized under. -/
structure Field where
  sourceName : String
  outputKey : String
  element : Element

end

instance : Inhabited Element := ⟨.aggregate []⟩

mutual

def Element.beq : Element → Element → Bool
  | .base k, .base l => k == l
  | .sequence a, .sequence b => a.beq b
  | .optional a, .optional b => a.beq b
  | .aggregate fs, .aggregate gs => beqFields fs gs
  | .deferred m, .deferred n => m == n
  | _, _ => false

def beqFields : List Field → List Field → Bool
  | [], [] => true
  | ⟨m, k, a⟩ :: fs, ⟨n, l, b⟩ :: gs => m == n && k == l && a.beq b && beqFields fs gs
  | _, _ => false

end

mutual

theorem Element.beq_iff : (a b : Element) → (a.beq b = true ↔ a = b)
  | .base k, b => by cases b <;> simp [Element.beq]
  | .sequence a, b => by cases b <;> simp [Element.beq, Element.beq_iff a]
  | .optional a, b => by cases b <;> simp [Element.beq, Element.beq_iff a]
  | .aggregate fs, b => by cases b <;> simp [Element.beq, beqFields_iff fs]
  | .deferred m, b => by cases b <;> simp [Element.beq]

theorem beqFields_iff : (fs gs : List Field) → (beqFields fs gs = true ↔ fs = gs)
  | [], gs => by cases gs <;> simp [beqFields]
  | ⟨m, k, a⟩ :: fs, gs => by
    cases gs with
    | nil => simp [beqFields]
    | cons g gs =>
      obtain ⟨n, l, b⟩ := g
      simp [beqFields, Element.beq_iff a, beqFields_iff fs, and_assoc]

end

instance : DecidableEq Element := fun a b => decidable_of_iff _ (a.beq_iff b)

instance : DecidableEq Field := fun f g =>
  decidable_of_iff (f.sourceName = g.sourceName ∧ f.outputKey = g.outputKey ∧ f.element = g.element)
    (by cases f; cases g; simp)

mutual

/-- Add the names of the deferred elements that have not been seen. -/
def Element.collectDeferred (seen : List String) : Element → List String
  | .base _ => seen
  | .sequence e => e.collectDeferred seen
  | .optional e => e.collectDeferred seen
  | .aggregate fs => collectDeferredFields seen fs
  | .deferred n => if seen.contains n then seen else seen ++ [n]

def collectDeferredFields (seen : List String) : List Field → List String
  | [] => seen
  | ⟨_, _, e⟩ :: fs => collectDeferredFields (e.collectDeferred seen) fs

end

/-- The names of the deferred elements within an element, in the order in which they are first
seen. -/
def Element.deferredNames (e : Element) : List String := e.collectDeferred []

structure TypeModel where
  name : String
  root : Element
  deriving DecidableEq

namespace TypeModel

def ofFields (name : String) (fields : List Field) : TypeModel :=
  ⟨name, .optional (.aggregate fields)⟩

/-- The fields of a model whose root is an optional aggregate. -/
def fields (m : TypeModel) : List Field :=
  match m.root with
  | .optional (.aggregate fs) => fs
  | _ => []

@[simp] theorem fields_ofFields (name : String) (fs : List Field) :
    (ofFields name fs).fields = fs := rfl

def deferredNames (m : TypeModel) : List String := m.root.deferredNames

end TypeModel

end StructModel
