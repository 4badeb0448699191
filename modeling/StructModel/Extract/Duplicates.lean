import StructModel.Element
import StructModel.Options

/-!
# Duplicate output keys

Fields are taken in order. Under the policy `lastWins` a field whose key is in use removes the
holder of the key and comes last; under `error` it ends the extraction.
-/

namespace StructModel.Extract

/-- A field that is to be placed, with the line of its declaration. -/
structure Slot where
  field : Field
  line : Nat
  deriving DecidableEq

/-- A slot that has taken the key of an earlier field, given by its source name. -/
structure Superseding where
  earlier : String
  slot : Slot
  deriving DecidableEq

def sameKey (f g : Field) : Bool := f.outputKey == g.outputKey

@[simp] theorem sameKey_iff {f g : Field} : sameKey f g = true ↔ f.outputKey = g.outputKey := by
  simp [sameKey]

/-- Place the slots behind the fields that are kept so far. The error is the key. -/
def place (policy : DuplicatePolicy) (kept : List Field) :
    List Slot → Except String (List Field × List Superseding)
  | [] => .ok (kept, [])
  | s :: rest =>
    match kept.find? (sameKey s.field) with
    | none => place policy (kept ++ [s.field]) rest
    | some earlier =>
      match policy with
      | .error => .error s.field.outputKey
      | .lastWins =>
        match place policy (kept.eraseP (sameKey s.field) ++ [s.field]) rest with
        | .error key => .error key
        | .ok (fields, ss) => .ok (fields, ⟨earlier.sourceName, s⟩ :: ss)

def resolve (policy : DuplicatePolicy) (slots : List Slot) :
    Except String (List Field × List Superseding) :=
  place policy [] slots

end StructModel.Extract
