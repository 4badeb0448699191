import StructModel.Json.Value
import StructModel.Text.Quoted

/-!
# Errors of decoding

A value that is not of the expected form is described by what was found and what was expected.
-/

namespace StructModel

open StructModel.Decimal

/-- What a value is, for a message. -/
inductive Found where
  | null
  | boolean (b : Bool)
  | integer (n : Int)
  | double (d : Double)
  | string (s : String)
  | sequence
  | map
  | unitVariant
  deriving DecidableEq, Repr

inductive DecodeError where
  | invalidType (found : Found) (expected : String)
  | invalidValue (found : Found) (expected : String)
  | invalidLength (length : Nat) (expected : String)
  | unknownVariant (name : String) (known : List String)
  | missingField (name : String)
  /-- A value of an enumeration in a notation that has its own words for it. -/
  | enumeration (text : String)
  deriving DecidableEq, Repr

namespace Found

def text : Found → String
  | null => "null"
  | boolean b => "boolean `" ++ (if b then "true" else "false") ++ "`"
  | integer n => "integer `" ++ toString n ++ "`"
  | double d => "floating point `" ++ d.textWithFraction ++ "`"
  | string s => "string " ++ Text.quoted s
  | sequence => "sequence"
  | map => "map"
  | unitVariant => "unit variant"

def asString : Found → Except DecodeError String
  | string s => .ok s
  | f => .error (.invalidType f "a string")

def asBool : Found → Except DecodeError Bool
  | boolean b => .ok b
  | f => .error (.invalidType f "a boolean")

/-- A number of 64 bits without a sign. -/
def asNat : Found → Except DecodeError Nat
  | integer n =>
    if n < 0 then .error (.invalidValue (.integer n) "usize") else .ok n.toNat
  | f => .error (.invalidType f "usize")

end Found

namespace DecodeError

def listed (names : List String) : String :=
  match names.map fun n => "`" ++ n ++ "`" with
  | [] => "there are no variants"
  | [a] => "expected " ++ a
  | [a, b] => "expected " ++ a ++ " or " ++ b
  | names => "expected one of " ++ String.intercalate ", " names

def message : DecodeError → String
  | invalidType found expected => "invalid type: " ++ found.text ++ ", expected " ++ expected
  | invalidValue found expected => "invalid value: " ++ found.text ++ ", expected " ++ expected
  | invalidLength n expected => "invalid length " ++ toString n ++ ", expected " ++ expected
  | unknownVariant name known => "unknown variant `" ++ name ++ "`, " ++ listed known
  | missingField name => "missing field `" ++ name ++ "`"
  | enumeration text => text

end DecodeError

abbrev Decoded (α : Type) := Except DecodeError α

namespace Json

def found : Json → Found
  | .null => .null
  | .bool b => .boolean b
  | .number (.int n) => .integer n
  | .number (.double d) => .double d
  | .string s => .string s
  | .array _ => .sequence
  | .object _ => .map

/-- Null stands for a text that is not there. -/
def asText? : Json → Decoded (Option String)
  | .null => .ok none
  | v => v.found.asString.map some

def asNat? : Json → Decoded (Option Nat)
  | .null => .ok none
  | v => v.found.asNat.map some

/-- The items of an array. -/
def asArray : Json → Decoded (List Json)
  | .array items => .ok items
  | v => .error (.invalidType v.found "a sequence")

/-- Require a member that was looked for. -/
def require {α : Type} (name : String) : Option α → Decoded α
  | some a => .ok a
  | none => .error (.missingField name)

/-- One of an enumeration's names without a payload, either bare or as the key of a null. -/
def asVariant {α : Type} (known : List (String × α)) (v : Json) : Decoded α :=
  let look (name : String) : Decoded α :=
    match known.lookup name with
    | some a => .ok a
    | none => .error (.unknownVariant name (known.map Prod.fst))
  match v with
  | .string s => look s
  | .object [⟨name, payload⟩] =>
    match look name with
    | .error e => .error e
    | .ok a =>
      match payload with
      | .null => .ok a
      | p => .error (.invalidType p.found "unit")
  | .object _ => .error (.invalidValue .map "map with a single key")
  | v => .error (.invalidType v.found "string or map")

end Json

end StructModel
