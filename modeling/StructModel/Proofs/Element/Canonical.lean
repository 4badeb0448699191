import StructModel.Proofs.Go.Names

/-!
# Canonical elements

An element is canonical when it could be the element of a type: bytes in a row are `bytes`, a
deferred name is none that has an element of its own, and an aggregate has distinct output keys that
are neither empty nor the mark of an excluded field. This is asked of all elements within it.
-/

namespace StructModel

open StructModel.Go

mutual

/-- An element with all the elements within it, each one before those within it. -/
def Element.subterms : Element → List Element
  | .base k => [.base k]
  | .sequence e => .sequence e :: e.subterms
  | .optional e => .optional e :: e.subterms
  | .aggregate fs => .aggregate fs :: subtermsOfFields fs
  | .deferred n => [.deferred n]

def subtermsOfFields : List Field → List Element
  | [] => []
  | ⟨_, _, e⟩ :: fs => e.subterms ++ subtermsOfFields fs

end

theorem mem_subtermsOfFields_iff {e : Element} {fs : List Field} :
    e ∈ subtermsOfFields fs ↔ ∃ f ∈ fs, e ∈ f.element.subterms := by
  induction fs with
  | nil => simp [subtermsOfFields]
  | cons f fs ih =>
      obtain ⟨sourceName, outputKey, element⟩ := f
      simp [subtermsOfFields, ih]

/-- What is asked of a field on its own. -/
structure Field.IsProper (f : Field) : Prop where
  sourceName_isIdentifier : isIdentifier f.sourceName = true
  outputKey_ne_empty : f.outputKey ≠ ""
  outputKey_ne_hyphen : f.outputKey ≠ "-"

/-- What is asked of an element apart from those within it. -/
def Element.IsProper : Element → Prop
  | .base _ => True
  | .sequence e => e ≠ .base .uint8
  | .optional _ => True
  | .aggregate fs => (fs.map Field.outputKey).Nodup ∧ ∀ f ∈ fs, f.IsProper
  | .deferred n => isIdentifier n = true ∧ n ≠ "any" ∧ BaseKind.ofIdent? n = none

def Element.IsCanonical (e : Element) : Prop := ∀ d ∈ e.subterms, d.IsProper

namespace Element

theorem isCanonical_base (k : BaseKind) : (base k).IsCanonical := by
  simp [IsCanonical, subterms, IsProper]

theorem isCanonical_deferred_iff {n : String} :
    (deferred n).IsCanonical ↔
      isIdentifier n = true ∧ n ≠ "any" ∧ BaseKind.ofIdent? n = none := by
  simp [IsCanonical, subterms, IsProper]

theorem isCanonical_sequence_iff {e : Element} :
    (sequence e).IsCanonical ↔ e ≠ .base .uint8 ∧ e.IsCanonical := by
  simp [IsCanonical, subterms, IsProper]

theorem isCanonical_optional_iff {e : Element} : (optional e).IsCanonical ↔ e.IsCanonical := by
  simp [IsCanonical, subterms, IsProper]

theorem isCanonical_aggregate_iff {fs : List Field} :
    (aggregate fs).IsCanonical ↔
      (fs.map Field.outputKey).Nodup ∧ ∀ f ∈ fs, f.IsProper ∧ f.element.IsCanonical := by
  simp only [IsCanonical, subterms, List.forall_mem_cons, IsProper, mem_subtermsOfFields_iff]
  constructor
  · rintro ⟨⟨hnodup, hfields⟩, hwithin⟩
    exact ⟨hnodup, fun f hf => ⟨hfields f hf, fun d hd => hwithin d ⟨f, hf, hd⟩⟩⟩
  · rintro ⟨hnodup, hfields⟩
    refine ⟨⟨hnodup, fun f hf => (hfields f hf).1⟩, ?_⟩
    rintro d ⟨f, hf, hd⟩
    exact (hfields f hf).2 d hd

end Element

end StructModel
