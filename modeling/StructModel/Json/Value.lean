import StructModel.Decimal.Double

/-!
# JSON values

The members of an object are kept in the order of the document. `sorted` is the order in which they
are examined: by key, the last one of several members with one key.
-/

namespace StructModel

open StructModel.Decimal

/-- A number written as an integer is kept exactly as far as 64 bits go. -/
inductive JsonNumber where
  | int (n : Int)
  | double (d : Double)
  deriving DecidableEq, Repr

mutual

inductive Json where
  | null
  | bool (b : Bool)
  | number (n : JsonNumber)
  | string (s : String)
  | array (items : List Json)
  | object (members : List JsonMember)

structure JsonMember where
  key : String
  value : Json

end

instance : Inhabited Json := ⟨.null⟩

namespace Json

def nat (n : Nat) : Json := .number (.int n)

/-- The text, or null. -/
def ofText? : Option String → Json
  | some s => .string s
  | none => .null

def strings (ss : List String) : Json := .array (ss.map .string)

/-- The value of the last member with a key. -/
def member? (key : String) : Json → Option Json
  | .object members => (members.reverse.find? fun m => m.key == key).map JsonMember.value
  | _ => none

end Json

/-- Put a member in its place by key, unless there is one with its key. -/
def insertMember (m : JsonMember) : List JsonMember → List JsonMember
  | [] => [m]
  | n :: ns =>
    if m.key = n.key then n :: ns
    else if m.key < n.key then m :: n :: ns
    else n :: insertMember m ns

mutual

/-- The value with the members of all objects sorted by key. -/
def Json.sorted : Json → Json
  | .array items => .array (sortedItems items)
  | .object members => .object (sortedMembers members)
  | v => v

def sortedItems : List Json → List Json
  | [] => []
  | v :: vs => v.sorted :: sortedItems vs

def sortedMembers : List JsonMember → List JsonMember
  | [] => []
  | ⟨k, v⟩ :: ms => insertMember ⟨k, v.sorted⟩ (sortedMembers ms)

end

mutual

/-- How deeply arrays and objects are nested. -/
def Json.depth : Json → Nat
  | .array items => depthOfItems items + 1
  | .object members => depthOfMembers members + 1
  | _ => 0

def depthOfItems : List Json → Nat
  | [] => 0
  | v :: vs => max v.depth (depthOfItems vs)

def depthOfMembers : List JsonMember → Nat
  | [] => 0
  | ⟨_, v⟩ :: ms => max v.depth (depthOfMembers ms)

end

end StructModel
