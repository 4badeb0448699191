import StructModel.Extract.Note

/-!
# Where an extraction stands

An extractor works in a scope: the path of the struct whose fields are being extracted, and the
notes made so far. It ends with a value or with a clash; the notes stay either way.
-/

namespace StructModel.Extract

/-- The path is that of the names of the fields around the struct, the outermost first. -/
structure Scope where
  path : List String := []
  notes : List Note := []
  deriving DecidableEq, Repr

def Extractor (α : Type) : Type := Scope → Except Clash α × Scope

namespace Extractor

instance : Monad Extractor where
  pure a := fun s => (.ok a, s)
  bind x f := fun s =>
    match x s with
    | (.ok a, s) => f a s
    | (.error c, s) => (.error c, s)

/-- End with a clash in the present struct. -/
def clash {α : Type} (key : String) : Extractor α := fun s => (.error ⟨s.path, key⟩, s)

/-- Make a note on a field of the present struct. -/
def note (leaf : String) (cause : Cause) (line : Nat) : Extractor Unit := fun s =>
  (.ok (), { s with notes := s.notes ++ [⟨s.path, leaf, cause, line⟩] })

/-- Work in the struct within a field of the present one. -/
def within {α : Type} (name : String) (x : Extractor α) : Extractor α := fun s =>
  let (result, inner) := x { s with path := s.path ++ [name] }
  (result, { inner with path := inner.path.dropLast })

variable {α β : Type}

@[simp] theorem pure_apply (a : α) (s : Scope) : (pure a : Extractor α) s = (.ok a, s) := rfl

theorem bind_apply (x : Extractor α) (f : α → Extractor β) (s : Scope) :
    (x >>= f) s =
      match x s with
      | (.ok a, s) => f a s
      | (.error c, s) => (.error c, s) := rfl

end Extractor

end StructModel.Extract
