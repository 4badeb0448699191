import StructModel.Element
import StructModel.Json.Decode
import StructModel.Json.Writer

/-!
# Type models as JSON

An element is an object with one member, the name of its form. Fields and models are objects of
their parts in order, and are also read from arrays of them.
-/

namespace StructModel

open StructModel.Json

namespace BaseKind

def names : List (String × BaseKind) :=
  [("Int", int), ("Int8", int8), ("Int16", int16), ("Int32", int32), ("Int64", int64),
    ("Uint", uint), ("Uint8", uint8), ("Uint16", uint16), ("Uint32", uint32), ("Uint64", uint64),
    ("Float32", float32), ("Float64", float64), ("Complex64", complex64),
    ("Complex128", complex128), ("String", string), ("Bool", bool), ("Bytes", bytes),
    ("MapStrStr", mapStrStr), ("MapStrIntf", mapStrIntf)]

def name : BaseKind → String
  | int => "Int"
  | int8 => "Int8"
  | int16 => "Int16"
  | int32 => "Int32"
  | int64 => "Int64"
  | uint => "Uint"
  | uint8 => "Uint8"
  | uint16 => "Uint16"
  | uint32 => "Uint32"
  | uint64 => "Uint64"
  | float32 => "Float32"
  | float64 => "Float64"
  | complex64 => "Complex64"
  | complex128 => "Complex128"
  | string => "String"
  | bool => "Bool"
  | bytes => "Bytes"
  | mapStrStr => "MapStrStr"
  | mapStrIntf => "MapStrIntf"

theorem lookup_name (k : BaseKind) : names.lookup k.name = some k := by
  cases k <;> decide

def ofJson (v : Json) : Decoded BaseKind := v.asVariant names

end BaseKind

mutual

def Element.toJson : Element → Json
  | .base k => .object [⟨"Base", .string k.name⟩]
  | .sequence e => .object [⟨"Sequence", e.toJson⟩]
  | .optional e => .object [⟨"Optional", e.toJson⟩]
  | .aggregate fs => .object [⟨"Aggregate", .array (fieldsToJson fs)⟩]
  | .deferred n => .object [⟨"Deferred", .string n⟩]

def fieldsToJson : List Field → List Json
  | [] => []
  | ⟨n, k, e⟩ :: fs =>
    .object [⟨"source_name", .string n⟩, ⟨"output_key", .string k⟩, ⟨"element", e.toJson⟩] ::
      fieldsToJson fs

end

def Field.toJson (f : Field) : Json :=
  .object [⟨"source_name", .string f.sourceName⟩, ⟨"output_key", .string f.outputKey⟩,
    ⟨"element", f.element.toJson⟩]

def elementForms : List String := ["Base", "Sequence", "Optional", "Aggregate", "Deferred"]

/-- The parts of a field found so far. -/
structure FieldParts where
  sourceName : Option String := none
  outputKey : Option String := none
  element : Option Element := none

/-- The parts make a field when all of them are there; the first one lacking is the error. -/
def FieldParts.field (p : FieldParts) : Decoded Field := do
  let sourceName ← require "source_name" p.sourceName
  let outputKey ← require "output_key" p.outputKey
  let element ← require "element" p.element
  return ⟨sourceName, outputKey, element⟩

mutual

/-- The element of a value whose members are sorted. -/
def elementOfSorted : Json → Decoded Element
  | .string s =>
    if elementForms.contains s then .error (.invalidType .unitVariant "newtype variant")
    else .error (.unknownVariant s elementForms)
  | .object [⟨"Base", v⟩] => (BaseKind.ofJson v).map .base
  | .object [⟨"Sequence", v⟩] => (elementOfSorted v).map .sequence
  | .object [⟨"Optional", v⟩] => (elementOfSorted v).map .optional
  | .object [⟨"Aggregate", .array items⟩] => (fieldsOfSorted items).map .aggregate
  | .object [⟨"Aggregate", v⟩] => .error (.invalidType v.found "a sequence")
  | .object [⟨"Deferred", v⟩] => v.found.asString.map .deferred
  | .object [⟨s, _⟩] => .error (.unknownVariant s elementForms)
  | .object _ => .error (.invalidValue .map "map with a single key")
  | v => .error (.invalidType v.found "string or map")

def fieldsOfSorted : List Json → Decoded (List Field)
  | [] => .ok []
  | v :: vs =>
    match fieldOfSorted v with
    | .error e => .error e
    | .ok f => (fieldsOfSorted vs).map (f :: ·)

def fieldOfSorted : Json → Decoded Field
  | .object members =>
    match fieldPartsOfMembers {} members with
    | .error e => .error e
    | .ok parts => parts.field
  | .array [] => .error (.invalidLength 0 "struct Field with 3 elements")
  | .array [n] =>
    match n.found.asString with
    | .error e => .error e
    | .ok _ => .error (.invalidLength 1 "struct Field with 3 elements")
  | .array [n, k] =>
    match n.found.asString, k.found.asString with
    | .error e, _ => .error e
    | _, .error e => .error e
    | .ok _, .ok _ => .error (.invalidLength 2 "struct Field with 3 elements")
  | .array (n :: k :: e :: rest) =>
    match n.found.asString, k.found.asString, elementOfSorted e with
    | .error e, _, _ => .error e
    | _, .error e, _ => .error e
    | _, _, .error e => .error e
    | .ok n, .ok k, .ok e =>
      if rest.isEmpty then .ok ⟨n, k, e⟩
      else .error (.invalidLength (3 + rest.length) "fewer elements in array")
  | v => .error (.invalidType v.found "struct Field")

def fieldPartsOfMembers (parts : FieldParts) : List JsonMember → Decoded FieldParts
  | [] => .ok parts
  | ⟨key, v⟩ :: ms =>
    if key = "source_name" then
      match v.found.asString with
      | .error e => .error e
      | .ok s => fieldPartsOfMembers { parts with sourceName := some s } ms
    else if key = "output_key" then
      match v.found.asString with
      | .error e => .error e
      | .ok s => fieldPartsOfMembers { parts with outputKey := some s } ms
    else if key = "element" then
      match elementOfSorted v with
      | .error e => .error e
      | .ok el => fieldPartsOfMembers { parts with element := some el } ms
    else fieldPartsOfMembers parts ms

end

def Element.ofJson (v : Json) : Decoded Element := elementOfSorted v.sorted

/-- Decode the items of an array one by one. -/
def decodeAll {α : Type} (decode : Json → Decoded α) : List Json → Decoded (List α)
  | [] => .ok []
  | v :: vs =>
    match decode v with
    | .error e => .error e
    | .ok a => (decodeAll decode vs).map (a :: ·)

def listOfJson {α : Type} (decode : Json → Decoded α) (v : Json) : Decoded (List α) :=
  match v.asArray with
  | .error e => .error e
  | .ok items => decodeAll decode items

def Field.ofJson (v : Json) : Decoded Field := fieldOfSorted v.sorted

namespace TypeModel

def toJson (m : TypeModel) : Json :=
  .object [⟨"name", .string m.name⟩, ⟨"root", m.root.toJson⟩]

/-- The parts of a model found so far. -/
structure Parts where
  name : Option String := none
  root : Option Element := none

def Parts.model (p : Parts) : Decoded TypeModel := do
  let name ← require "name" p.name
  let root ← require "root" p.root
  return ⟨name, root⟩

def partsOfMembers (parts : Parts) : List JsonMember → Decoded Parts
  | [] => .ok parts
  | ⟨key, v⟩ :: ms =>
    if key = "name" then
      match v.found.asString with
      | .error e => .error e
      | .ok s => partsOfMembers { parts with name := some s } ms
    else if key = "root" then
      match elementOfSorted v with
      | .error e => .error e
      | .ok e => partsOfMembers { parts with root := some e } ms
    else partsOfMembers parts ms

def ofSorted : Json → Decoded TypeModel
  | .object members => (partsOfMembers {} members).bind Parts.model
  | .array [] => .error (.invalidLength 0 "struct TypeModel with 2 elements")
  | .array [n] =>
    n.found.asString.bind fun _ =>
      .error (.invalidLength 1 "struct TypeModel with 2 elements")
  | .array (n :: r :: rest) => do
    let name ← n.found.asString
    let root ← elementOfSorted r
    if rest.isEmpty then return ⟨name, root⟩
    else throw (.invalidLength (2 + rest.length) "fewer elements in array")
  | v => .error (.invalidType v.found "struct TypeModel")

def ofJson (v : Json) : Decoded TypeModel := ofSorted v.sorted

end TypeModel

/-- The text of a list of models. -/
def modelsText (ms : List TypeModel) : String := Json.pretty (.array (ms.map TypeModel.toJson))

end StructModel
