import StructModel.Proofs.Element.Canonical
import StructModel.Proofs.Extract.Relocation
import StructModel.Proofs.Tag.Written

/-!
# A type for every canonical element

A canonical element can be written as a type. The type is well named, its tags are literals, and it
has just this element, under any policy and wherever it stands: nothing is noted on the way. So
being canonical is all that is asked of the elements of types.
-/

namespace StructModel

open StructModel.Go

namespace Go

mutual

/-- The tags in a type as they are written, also those of nested structs. -/
def TypeExpr.tags : TypeExpr → List String
  | .name _ => []
  | .pointer t => t.tags
  | .slice t => t.tags
  | .array t => t.tags
  | .map k v => k.tags ++ v.tags
  | .struct ds => tagsOfFields ds
  | .interface _ => []
  | .paren t => t.tags
  | .other _ => []

def FieldDecl.tags : FieldDecl → List String
  | ⟨_, type, _, tag, _⟩ => tag.toList ++ type.tags

def tagsOfFields : List FieldDecl → List String
  | [] => []
  | d :: ds => d.tags ++ tagsOfFields ds

end

/-- A text that is one string literal from end to end. -/
def IsStringLiteral (text : String) : Prop :=
  text ≠ "" ∧ (Literal.string text.toList = text.length ∨
    Literal.rawString text.toList = text.length)

end Go

/-- A type with a base kind for its element. -/
def BaseKind.written : BaseKind → TypeExpr
  | .bytes => .slice (.name "byte")
  | .mapStrStr => .map (.name "string") (.name "string")
  | .mapStrIntf => .map (.name "string") (.name "any")
  | k => .name (((BaseKind.table.find? fun p => p.2 == k).map Prod.fst).getD "")

/-- The tag that gives a field its output key. A field that is serialized under its own name needs
none. -/
def writtenTag (tagKey name outputKey : String) : Option String :=
  if outputKey = name then none else some (Tag.tagLiteral tagKey outputKey)

mutual

/-- A type with the given element. The texts and lines of its fields are left blank. -/
def Element.written (tagKey : String) : Element → TypeExpr
  | .base k => k.written
  | .sequence e => .slice (e.written tagKey)
  | .optional e => .pointer (e.written tagKey)
  | .aggregate fs => .struct (writtenFields tagKey fs)
  | .deferred n => .name n

def writtenFields (tagKey : String) : List Field → List FieldDecl
  | [] => []
  | ⟨name, outputKey, e⟩ :: fs =>
    ⟨.named name [], e.written tagKey, "", writtenTag tagKey name outputKey, 0⟩ ::
      writtenFields tagKey fs

end

section Wellformed

variable (tagKey : String)

theorem BaseKind.isWellNamed_written (k : BaseKind) : k.written.isWellNamed = true := by
  cases k <;> decide

theorem BaseKind.tags_written (k : BaseKind) : k.written.tags = [] := by
  cases k <;> rfl

mutual

theorem Element.isWellNamed_written :
    (e : Element) → e.IsCanonical → (e.written tagKey).isWellNamed = true
  | .base k, _ => k.isWellNamed_written
  | .sequence e, h => e.isWellNamed_written (Element.isCanonical_sequence_iff.mp h).2
  | .optional e, h => e.isWellNamed_written (Element.isCanonical_optional_iff.mp h)
  | .aggregate fs, h => areWellNamed_written fs (Element.isCanonical_aggregate_iff.mp h).2
  | .deferred _, h => (Element.isCanonical_deferred_iff.mp h).1

theorem areWellNamed_written :
    (fs : List Field) → (∀ f ∈ fs, f.IsProper ∧ f.element.IsCanonical) →
      areWellNamed (writtenFields tagKey fs) = true
  | [], _ => rfl
  | ⟨name, outputKey, e⟩ :: fs, h => by
      obtain ⟨⟨hproper, he⟩, hfs⟩ := List.forall_mem_cons.mp h
      simp [writtenFields, areWellNamed, FieldDecl.isWellNamed, Binding.isWellNamed,
        hproper.sourceName_isIdentifier, e.isWellNamed_written he, areWellNamed_written fs hfs]

end

theorem isStringLiteral_tagLiteral (outputKey : String) :
    IsStringLiteral (Tag.tagLiteral tagKey outputKey) := by
  have hscan := Literal.string_literalOf (Tag.tagText tagKey outputKey).toList []
  rw [List.append_nil] at hscan
  refine ⟨fun hempty => ?_, Or.inl ?_⟩
  · have hlist := congrArg String.toList hempty
    simp [Tag.tagLiteral, Tag.literalOf] at hlist
  · rw [Tag.tagLiteral, String.toList_ofList, hscan, String.length_ofList]

theorem isStringLiteral_of_mem_writtenTag {name outputKey tag : String}
    (h : tag ∈ (writtenTag tagKey name outputKey).toList) : IsStringLiteral tag := by
  unfold writtenTag at h
  split at h
  · cases h
  · rw [Option.toList_some, List.mem_singleton] at h
    rw [h]
    exact isStringLiteral_tagLiteral tagKey outputKey

mutual

theorem Element.isStringLiteral_of_mem_tags :
    (e : Element) → ∀ tag ∈ (e.written tagKey).tags, IsStringLiteral tag
  | .base k, tag, h => by
      rw [Element.written, k.tags_written] at h
      cases h
  | .sequence e, tag, h => e.isStringLiteral_of_mem_tags tag h
  | .optional e, tag, h => e.isStringLiteral_of_mem_tags tag h
  | .aggregate fs, tag, h => isStringLiteral_of_mem_tagsOfFields fs tag h
  | .deferred _, _, h => nomatch h

theorem isStringLiteral_of_mem_tagsOfFields :
    (fs : List Field) → ∀ tag ∈ tagsOfFields (writtenFields tagKey fs), IsStringLiteral tag
  | [], _, h => nomatch h
  | ⟨name, outputKey, e⟩ :: fs, tag, h => by
      simp only [writtenFields, tagsOfFields, FieldDecl.tags, List.mem_append] at h
      rcases h with (h | h) | h
      · exact isStringLiteral_of_mem_writtenTag tagKey h
      · exact e.isStringLiteral_of_mem_tags tag h
      · exact isStringLiteral_of_mem_tagsOfFields fs tag h

end

end Wellformed

namespace Extract

open Extractor

/-- A byte by its name has the element of a byte. -/
theorem build_of_isByte {o : Options} {t : TypeExpr} (h : isByte t = true) :
    build o t = pure (some (.base .uint8)) := by
  rw [← build_unparen]
  unfold isByte at h
  split at h
  · rename_i n hn
    rw [hn, build, namedElement, beq_iff_eq.mp h]
  · cases h

theorem build_baseKind (o : Options) (k : BaseKind) :
    build o k.written = pure (some (.base k)) := by
  cases k <;> rfl

/-- Working in a field makes no difference where nothing is noted. -/
theorem within_pure {α : Type} (name : String) (a : α) :
    within name (pure a : Extractor α) = pure a := by
  funext s
  simp [within]

theorem slot_pure (name key text : String) (line : Nat) (e : Element) :
    slot name key text line (pure (some e)) = pure [⟨⟨name, key, e⟩, line⟩] := by
  unfold slot
  rw [within_pure]
  rfl

theorem tagEffect_writtenTag {o : Options} (hkey : Tag.IsName o.tagKey.toList) {f : Field}
    (hf : f.IsProper) :
    tagEffect o (writtenTag o.tagKey f.sourceName f.outputKey) f.sourceName =
      .key f.outputKey := by
  unfold writtenTag
  split
  · rename_i hname
    rw [hname]
    rfl
  · have hvalue : tagValue o (some (Tag.tagLiteral o.tagKey f.outputKey)) = some f.outputKey := by
      simp only [tagValue, Option.bind_eq_bind, Option.bind_some, Tag.literalValue_tagLiteral,
        Tag.lookup_tagText hkey]
    unfold tagEffect
    rw [hvalue]
    split
    · rename_i hhyphen
      exact absurd (Option.some.inj hhyphen) hf.outputKey_ne_hyphen
    · rename_i hnone
      cases hnone
    · rename_i hempty
      exact absurd (Option.some.inj hempty) hf.outputKey_ne_empty
    · rename_i hsome
      rw [Option.some.inj hsome]

theorem fieldsOfSlots_of_nodup {o : Options} {slots : List Slot}
    (h : ((slots.map Slot.field).map Field.outputKey).Nodup) :
    fieldsOfSlots o slots = pure (slots.map Slot.field) := by
  have hplace : resolve o.duplicateKeys slots = .ok (slots.map Slot.field, []) := place_of_nodup h
  rw [fieldsOfSlots, hplace]
  rfl

mutual

theorem build_written {o : Options} (hkey : Tag.IsName o.tagKey.toList) :
    (e : Element) → e.IsCanonical → build o (e.written o.tagKey) = pure (some e)
  | .base k, _ => build_baseKind o k
  | .sequence e, h => by
      obtain ⟨hbyte, he⟩ := Element.isCanonical_sequence_iff.mp h
      have hbuild := build_written hkey e he
      -- what is named a byte would be built as one, and the item is none
      have hno : ¬ isByte (e.written o.tagKey) = true := by
        intro hyes
        have heq := congrFun (hbuild.symm.trans (build_of_isByte hyes)) {}
        simp at heq
        exact hbyte heq
      rw [Element.written, build, if_neg hno, hbuild]
      rfl
  | .optional e, h => by
      rw [Element.written, build, build_written hkey e (Element.isCanonical_optional_iff.mp h)]
      rfl
  | .aggregate fs, h => by
      obtain ⟨hnodup, hfs⟩ := Element.isCanonical_aggregate_iff.mp h
      -- the policy never comes into play, for no two fields have one key
      have hplaced : fieldsOfSlots o (fs.map fun f => ⟨f, 0⟩) = pure fs := by
        rw [fieldsOfSlots_of_nodup ((map_field_slots 0 fs).symm ▸ hnodup), map_field_slots]
      rw [Element.written, build, slotsOfDecls_written hkey fs hfs]
      exact congrArg (· >>= fun fields => pure (some (Element.aggregate fields))) hplaced
  | .deferred n, h => by
      obtain ⟨-, hany, hbase⟩ := Element.isCanonical_deferred_iff.mp h
      rw [Element.written, build, namedElement, hbase]
      simp [hany]

theorem slotsOfDecls_written {o : Options} (hkey : Tag.IsName o.tagKey.toList) :
    (fs : List Field) → (∀ f ∈ fs, f.IsProper ∧ f.element.IsCanonical) →
      slotsOfDecls o (writtenFields o.tagKey fs) = pure (fs.map fun f => ⟨f, 0⟩)
  | [], _ => by
      rw [writtenFields, slotsOfDecls]
      rfl
  | ⟨name, outputKey, e⟩ :: fs, h => by
      obtain ⟨⟨hproper, he⟩, hfs⟩ := List.forall_mem_cons.mp h
      rw [writtenFields, slotsOfDecls, slotsOfDecl, taggedSlot,
        tagEffect_writtenTag hkey hproper, slotsOfDecls_written hkey fs hfs]
      simp only [build_written hkey e he, slot_pure]
      rfl

end

end Extract

end StructModel
