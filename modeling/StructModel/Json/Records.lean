import StructModel.Diagnostic
import StructModel.Json.Decode
import StructModel.Options

/-!
# Options and diagnostics as JSON
-/

namespace StructModel

open StructModel.Json

namespace DuplicatePolicy

def name : DuplicatePolicy → String
  | error => "error"
  | lastWins => "last-wins"

def names : List (String × DuplicatePolicy) := [("error", error), ("last-wins", lastWins)]

theorem lookup_name (p : DuplicatePolicy) : names.lookup p.name = some p := by
  cases p <;> decide

end DuplicatePolicy

namespace Options

def toJson (o : Options) : Json :=
  .object [⟨"tag_key", .string o.tagKey⟩, ⟨"exported_only", .bool o.exportedOnly⟩,
    ⟨"duplicate_keys", .string o.duplicateKeys.name⟩]

/-- Change the options by members, in whatever notation: what each value is, and how a policy is
read, depend on it. Unknown members change nothing. -/
def withMembers {α : Type} (found : α → Found) (policy : α → Decoded DuplicatePolicy)
    (o : Options) : List (String × α) → Decoded Options
  | [] => .ok o
  | (key, v) :: ms =>
    if key = "tag_key" then
      match (found v).asString with
      | .error e => .error e
      | .ok s => withMembers found policy { o with tagKey := s } ms
    else if key = "exported_only" then
      match (found v).asBool with
      | .error e => .error e
      | .ok b => withMembers found policy { o with exportedOnly := b } ms
    else if key = "duplicate_keys" then
      match policy v with
      | .error e => .error e
      | .ok p => withMembers found policy { o with duplicateKeys := p } ms
    else withMembers found policy o ms

def policyOfJson (v : Json) : Decoded DuplicatePolicy := v.asVariant DuplicatePolicy.names

/-- The names of the options in the order of an array of them. -/
def order : List String := ["tag_key", "exported_only", "duplicate_keys"]

/-- The options that an object or an array gives; the others have their defaults. -/
def ofJson (v : Json) : Decoded Options :=
  match v.sorted with
  | .object members =>
    withMembers Json.found policyOfJson {} (members.map fun m => (m.key, m.value))
  | .array items =>
    match withMembers Json.found policyOfJson {} (order.zip items) with
    | .error e => .error e
    | .ok o =>
      if items.length ≤ order.length then .ok o
      else .error (.invalidLength items.length "fewer elements in array")
  | v => .error (.invalidType v.found "struct ExtractOptions")

end Options

namespace Severity

def name : Severity → String
  | notice => "Notice"
  | warning => "Warning"

def names : List (String × Severity) := [("Notice", notice), ("Warning", warning)]

theorem lookup_name (s : Severity) : names.lookup s.name = some s := by
  cases s <;> decide

def ofJson (v : Json) : Decoded Severity := v.asVariant names

end Severity

namespace Diagnostic

def toJson (d : Diagnostic) : Json :=
  .object [⟨"severity", .string d.severity.name⟩, ⟨"message", .string d.message⟩,
    ⟨"declaration", Json.ofText? d.declaration⟩, ⟨"field", Json.ofText? d.field⟩,
    ⟨"line", match d.line with
      | some n => Json.nat n
      | none => .null⟩]

/-- The parts of a diagnostic found so far. The last three may be lacking. -/
structure Parts where
  severity : Option Severity := none
  message : Option String := none
  declaration : Option String := none
  field : Option String := none
  line : Option Nat := none

def Parts.diagnostic (p : Parts) : Decoded Diagnostic := do
  let severity ← require "severity" p.severity
  let message ← require "message" p.message
  return ⟨severity, message, p.declaration, p.field, p.line⟩

def Parts.set (p : Parts) (key : String) (v : Json) : Decoded Parts :=
  if key = "severity" then (Severity.ofJson v).map fun s => { p with severity := some s }
  else if key = "message" then v.found.asString.map fun s => { p with message := some s }
  else if key = "declaration" then v.asText?.map fun s => { p with declaration := s }
  else if key = "field" then v.asText?.map fun s => { p with field := s }
  else if key = "line" then v.asNat?.map fun n => { p with line := n }
  else .ok p

def partsOfMembers (parts : Parts) : List (String × Json) → Decoded Parts
  | [] => .ok parts
  | (key, v) :: ms =>
    match parts.set key v with
    | .error e => .error e
    | .ok parts => partsOfMembers parts ms

def order : List String := ["severity", "message", "declaration", "field", "line"]

def ofJson (v : Json) : Decoded Diagnostic :=
  match v.sorted with
  | .object members =>
    (partsOfMembers {} (members.map fun m => (m.key, m.value))).bind Parts.diagnostic
  | .array items =>
    match partsOfMembers {} (order.zip items) with
    | .error e => .error e
    | .ok parts =>
      if items.length < order.length then
        .error (.invalidLength items.length "struct Diagnostic with 5 elements")
      else if order.length < items.length then
        .error (.invalidLength items.length "fewer elements in array")
      else parts.diagnostic
  | v => .error (.invalidType v.found "struct Diagnostic")

end Diagnostic

end StructModel
