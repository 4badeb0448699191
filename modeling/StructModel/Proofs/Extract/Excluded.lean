import StructModel.Proofs.Extract.Removal

/-!
# Fields that their tags exclude

A field whose tag excludes it is left out with a notice, and its type has no part in what a file
comes to. There is one exception to the first: an embedded field without a name is warned of, and
its tag is not looked at.
-/

namespace StructModel

open StructModel.Go

/-- Whether a declaration embeds a type that is no plain name. -/
def Go.FieldDecl.isUnnamed : FieldDecl → Bool
  | ⟨.embedded _, .name _, _, _, _⟩ => false
  | ⟨.embedded _, _, _, _, _⟩ => true
  | ⟨.named _ _, _, _, _, _⟩ => false

namespace Extract

open Extractor

/-- A declaration has at most one name, and its tag gives the mark of an excluded field. -/
structure IsExcluded (o : Options) (d : FieldDecl) : Prop where
  single : ∀ name other others, d.binding ≠ .named name (other :: others)
  tagValue : tagValue o d.tag = some "-"

section Declarations

variable {o : Options} {d : FieldDecl}

theorem tagEffect_of_tagValue {tag : Option String} (h : tagValue o tag = some "-")
    (name : String) : tagEffect o tag name = .exclude := by
  simp [tagEffect, h]

/-- The types of excluded fields do not show in whether they are excluded. -/
theorem IsExcluded.retype (h : IsExcluded o d) (type : TypeExpr) :
    IsExcluded o { d with type := type } :=
  ⟨h.single, h.tagValue⟩

/-- What an excluded declaration has to say on its one field. -/
def exclusionCause (d : FieldDecl) : Cause := if d.isUnnamed then .unnamed d.text else .excluded

/-- An excluded declaration lists one field, which it makes a note on and leaves out. -/
theorem IsExcluded.slotsOfDecl_eq (h : IsExcluded o d) :
    ∃ leaf, d.entries = [⟨d, leaf⟩] ∧
      slotsOfDecl o d = (note leaf (exclusionCause d) d.line >>= fun _ => pure []) := by
  obtain ⟨hsingle, htag⟩ := h
  cases d using FieldDecl.shapes with
  | single name type text tag line =>
      refine ⟨name, rfl, ?_⟩
      rw [slotsOfDecl, taggedSlot, tagEffect_of_tagValue htag]
      rfl
  | several name other others type text tag line => exact absurd rfl (hsingle name other others)
  | embedded indirect n text tag line =>
      refine ⟨n, rfl, ?_⟩
      rw [slotsOfDecl_embedded, taggedSlot, tagEffect_of_tagValue htag]
      rfl
  | unnamed indirect type text tag line hname =>
      refine ⟨text, FieldDecl.entries_unnamed hname, ?_⟩
      rw [slotsOfDecl_unnamed o text tag line hname]
      cases type with
      | name n => exact absurd rfl (hname n)
      | _ => rfl

/-- Its field is left out, whatever comes after it. -/
theorem IsExcluded.areLeftOut (h : IsExcluded o d) (later : List Entry) :
    AreLeftOut o later d.entries := by
  obtain ⟨hsingle, htag⟩ := h
  cases d using FieldDecl.shapes with
  | single name type text tag line =>
      exact ⟨IsLeftOut.excluded hsingle (tagEffect_of_tagValue htag name), trivial⟩
  | several name other others type text tag line => exact absurd rfl (hsingle name other others)
  | embedded indirect n text tag line =>
      exact ⟨IsLeftOut.excluded hsingle (tagEffect_of_tagValue htag n), trivial⟩
  | unnamed indirect type text tag line hname =>
      rw [FieldDecl.entries_unnamed hname]
      exact ⟨IsLeftOut.unnamed indirect rfl hname, trivial⟩

end Declarations

/-- One type is another one with another type for one excluded field somewhere in it. -/
inductive Retyping (o : Options) : TypeExpr → TypeExpr → Prop
  | here {before after : List FieldDecl} {d : FieldDecl} (h : IsExcluded o d) (type : TypeExpr) :
      Retyping o (.struct (before ++ d :: after))
        (.struct (before ++ { d with type := type } :: after))
  | field {before after : List FieldDecl} {d : FieldDecl} {type : TypeExpr}
      (h : Retyping o d.type type) :
      Retyping o (.struct (before ++ d :: after))
        (.struct (before ++ { d with type := type } :: after))
  | pointer {t u : TypeExpr} (h : Retyping o t u) : Retyping o (.pointer t) (.pointer u)
  | slice {t u : TypeExpr} (h : Retyping o t u) : Retyping o (.slice t) (.slice u)
  | array {t u : TypeExpr} (h : Retyping o t u) : Retyping o (.array t) (.array u)
  | key {t u : TypeExpr} (v : TypeExpr) (h : Retyping o t u) : Retyping o (.map t v) (.map u v)
  | value (k : TypeExpr) {t u : TypeExpr} (h : Retyping o t u) : Retyping o (.map k t) (.map k u)
  | paren {t u : TypeExpr} (h : Retyping o t u) : Retyping o (.paren t) (.paren u)

section Types

variable {o : Options} {t u : TypeExpr}

/-- Without the excluded field the two types are the same. -/
theorem Retyping.exists_removal (h : Retyping o t u) : ∃ v, Removal o t v ∧ Removal o u v := by
  induction h with
  | @here before after d h type =>
      refine ⟨.struct (before ++ after), Removal.here (h.areLeftOut _), ?_⟩
      exact Removal.here ((h.retype type).areLeftOut _)
  | @field before after d type h ih =>
      obtain ⟨v, ht, hu⟩ := ih
      refine ⟨.struct (before ++ { d with type := v } :: after), Removal.field ht, ?_⟩
      exact Removal.field (d := { d with type := type }) hu
  | pointer h ih =>
      obtain ⟨v, ht, hu⟩ := ih
      exact ⟨.pointer v, Removal.pointer ht, Removal.pointer hu⟩
  | slice h ih =>
      obtain ⟨v, ht, hu⟩ := ih
      exact ⟨.slice v, Removal.slice ht, Removal.slice hu⟩
  | array h ih =>
      obtain ⟨v, ht, hu⟩ := ih
      exact ⟨.array v, Removal.array ht, Removal.array hu⟩
  | key w h ih =>
      obtain ⟨v, ht, hu⟩ := ih
      exact ⟨.map v w, Removal.key w ht, Removal.key w hu⟩
  | value k h ih =>
      obtain ⟨v, ht, hu⟩ := ih
      exact ⟨.map k v, Removal.value k ht, Removal.value k hu⟩
  | paren h ih =>
      obtain ⟨v, ht, hu⟩ := ih
      exact ⟨.paren v, Removal.paren ht, Removal.paren hu⟩

theorem Retyping.result_build (h : Retyping o t u) :
    (build o u).result = (build o t).result := by
  obtain ⟨v, ht, hu⟩ := h.exists_removal
  exact hu.result_build.symm.trans ht.result_build

theorem Retyping.isStruct (h : Retyping o t u) : u.isStruct = t.isStruct := by
  obtain ⟨v, ht, hu⟩ := h.exists_removal
  exact hu.isStruct.symm.trans ht.isStruct

end Types

section Files

variable {o : Options} {f g : SourceFile}

/-- A file has the same models when the type of one of its specifications comes to the same as
before. The texts and lines may be any others. -/
theorem models_of_result_build {before after : List TypeSpec} {s : TypeSpec} {type : TypeExpr}
    (hname : g.name = f.name) (hspecs : f.specs = before ++ s :: after)
    (hforget : g.specs.map (TypeSpec.relocate .forget) =
      (before ++ { s with type := type } :: after).map (TypeSpec.relocate .forget))
    (hstruct : type.isStruct = s.type.isStruct)
    (hresult : (build o type).result = (build o s.type).result) :
    (extract o g).map Extraction.models = (extract o f).map Extraction.models := by
  have hrelocate : ∀ ss : List TypeSpec, ss.flatMap (specModels o f.name) =
      (ss.map (TypeSpec.relocate .forget)).flatMap (specModels o f.name) := by
    intro ss
    simp only [List.flatMap_map, specModels_relocate]
  have hspec : specModels o f.name { s with type := type } = specModels o f.name s :=
    specModels_congr rfl rfl hstruct hresult
  rw [models_extract, models_extract, hname, hrelocate, hforget, ← hrelocate, hspecs,
    List.flatMap_append, List.flatMap_append, List.flatMap_cons, List.flatMap_cons, hspec]

/-- The second file is the first one with another type for an excluded field, which stands somewhere
in the type of one of its specifications. The texts and lines may be any others. Where the field
stands in a part that the type does not keep, such as the parameters of a function, the type stays
as it is. -/
def IsRetyping (o : Options) (f g : SourceFile) : Prop :=
  g.name = f.name ∧ ∃ (before after : List TypeSpec) (s : TypeSpec) (type : TypeExpr),
    f.specs = before ++ s :: after ∧ (type = s.type ∨ Retyping o s.type type) ∧
      g.specs.map (TypeSpec.relocate .forget) =
        (before ++ { s with type := type } :: after).map (TypeSpec.relocate .forget)

/-- A declaration that its tag excludes gives no slot and one note, whatever its type is. The note
is a notice of the exclusion exactly when the field has a name; the only other note there is warns
of an embedded field without one. With another type for an excluded field a file has the same models
or the same error. -/
theorem type_of_excluded (o : Options) :
    (∀ d, IsExcluded o d → ∀ s : Scope, ∃ n : Note,
      slotsOfDecl o d s = (.ok [], ⟨s.path, s.notes ++ [n]⟩) ∧
        d.entries = [⟨d, n.leaf⟩] ∧ n.path = s.path ∧ n.line = d.line ∧
        n.cause = (if d.isUnnamed then .unnamed d.text else .excluded) ∧
        (n.severity = .notice ↔ d.isUnnamed = false)) ∧
      ∀ f g, IsRetyping o f g →
        (extract o g).map Extraction.models = (extract o f).map Extraction.models := by
  constructor
  · intro d hd s
    obtain ⟨leaf, hentries, hslots⟩ := hd.slotsOfDecl_eq
    refine ⟨⟨s.path, leaf, exclusionCause d, d.line⟩, ?_, hentries, rfl, rfl, rfl, ?_⟩
    · rw [hslots]
      rfl
    · unfold Note.severity exclusionCause
      cases d.isUnnamed <;> simp
  · rintro f g ⟨hname, before, after, s, type, hspecs, hretyping, hforget⟩
    rcases hretyping with rfl | hretyping
    · exact models_of_result_build hname hspecs hforget rfl rfl
    · exact models_of_result_build hname hspecs hforget hretyping.isStruct hretyping.result_build

/-- An embedded type without a plain name whose tag excludes it. -/
def lockDecl : FieldDecl :=
  ⟨.embedded false, .other .qualified, "sync.Mutex", some "`msg:\"-\"`", 5⟩

/-- A field of a struct with a clash whose tag excludes it. -/
def secretDecl : FieldDecl :=
  ⟨.named "secret" [], .struct [⟨.named "A" [], .name "int", "int", none, 7⟩,
    ⟨.named "B" [], .name "int", "int", some "`msg:\"A\"`", 8⟩], "", some "`msg:\"-\"`", 6⟩

theorem isExcluded_lockDecl : IsExcluded {} lockDecl :=
  ⟨fun _ _ _ h => (nomatch h), by cbv⟩

theorem isExcluded_secretDecl : IsExcluded {} secretDecl :=
  ⟨fun _ _ _ h => (nomatch h), by cbv⟩

/-- Other types for two excluded fields of a nested struct. -/
theorem type_of_excluded_rowsFile :
    (∃ n : Note, slotsOfDecl {} lockDecl ⟨["Rows"], []⟩ = (.ok [], ⟨["Rows"], [n]⟩) ∧
        n.severity ≠ .notice) ∧
      (∃ n : Note, slotsOfDecl {} secretDecl ⟨["Rows"], []⟩ = (.ok [], ⟨["Rows"], [n]⟩) ∧
        n.severity = .notice) ∧
      IsRetyping {} (rowsFile [lockDecl, secretDecl, idDecl])
        (rowsFile [{ lockDecl with type := .name "Mutex" }, secretDecl, idDecl]) ∧
      (extract {} (rowsFile [{ lockDecl with type := .name "Mutex" }, secretDecl, idDecl])).map
          Extraction.models =
        .ok [.ofFields "Table" [⟨"Rows", "Rows", .sequence (.aggregate
          [⟨"ID", "id", .base .int⟩])⟩]] := by
  have hretyping : IsRetyping {} (rowsFile [lockDecl, secretDecl, idDecl])
      (rowsFile [{ lockDecl with type := .name "Mutex" }, secretDecl, idDecl]) := by
    have hlock := @Retyping.here {} [] [secretDecl, idDecl] lockDecl isExcluded_lockDecl
      (.name "Mutex")
    have htable := @Retyping.field {} [] [] ⟨.named "Rows" [], _, "[]struct", none, 4⟩ _
      (Retyping.slice hlock)
    exact ⟨rfl, [], [], _, _, rfl, Or.inr htable, rfl⟩
  obtain ⟨hnote, hmodels⟩ := type_of_excluded {}
  refine ⟨?_, ?_, hretyping, ?_⟩
  · obtain ⟨n, hrun, -, -, -, -, hnotice⟩ := hnote lockDecl isExcluded_lockDecl ⟨["Rows"], []⟩
    exact ⟨n, hrun, fun h => nomatch hnotice.mp h⟩
  · obtain ⟨n, hrun, -, -, -, -, hnotice⟩ := hnote secretDecl isExcluded_secretDecl ⟨["Rows"], []⟩
    exact ⟨n, hrun, hnotice.mpr rfl⟩
  · rw [hmodels _ _ hretyping]
    cbv

end Files

end Extract

end StructModel
