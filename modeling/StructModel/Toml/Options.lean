import StructModel.Json.Records
import StructModel.Toml.Reader

/-!
# Options in TOML
-/

namespace StructModel

open StructModel.Toml

namespace Toml.Value

/-- What a value is, for a message. A time counts as a map. -/
def found : Value → Found
  | string s => .string s
  | integer n => .integer n
  | double d => .double d
  | boolean b => .boolean b
  | datetime => .map
  | array _ => .sequence
  | inline _ _ => .map
  | table _ _ => .map
  | tables _ => .sequence

def typeName : Value → String
  | string _ => "string"
  | integer _ => "integer"
  | double _ => "float"
  | boolean _ => "boolean"
  | datetime => "datetime"
  | array _ => "array"
  | inline _ _ => "inline table"
  | table _ _ => "table"
  | tables _ => "array of tables"

/-- What a name of an enumeration may have as its payload: nothing. -/
def checkEmpty : Value → Decoded Unit
  | inline _ es | table _ es =>
    if es.isEmpty then .ok () else .error (.enumeration "expected empty table")
  | array vs => if vs.isEmpty then .ok () else .error (.enumeration "expected empty table")
  | tables ts => if ts.isEmpty then .ok () else .error (.enumeration "expected empty array")
  | v => .error (.enumeration ("expected table, found " ++ v.typeName))

end Toml.Value

/-- Why a text gives no options. -/
inductive TomlError where
  | syntaxError
  | value (e : DecodeError)
  deriving DecidableEq, Repr

namespace Options

def policyOfName (name : String) : Decoded DuplicatePolicy :=
  match DuplicatePolicy.names.lookup name with
  | some p => .ok p
  | none => .error (.unknownVariant name (DuplicatePolicy.names.map Prod.fst))

/-- A policy is a text or a table with the name of the policy as its only key. -/
def policyOfToml : Value → Decoded DuplicatePolicy
  | .string s => policyOfName s
  | .inline _ es | .table _ es =>
    match es with
    | [] => .error (.enumeration "wanted exactly 1 element, found 0 elements")
    | [e] => do
      let p ← policyOfName e.key
      e.value.checkEmpty
      return p
    | _ => .error (.enumeration "wanted exactly 1 element, more than 1 element")
  | _ => .error (.enumeration "wanted string or table")

/-- The options of a document. Entries that are no options are passed over. -/
def ofToml (text : String) : Except TomlError Options :=
  match Toml.parse text with
  | none => .error .syntaxError
  | some es =>
    match withMembers Value.found policyOfToml {} (es.map fun e => (e.key, e.value)) with
    | .error e => .error (.value e)
    | .ok o => .ok o

end Options

end StructModel
