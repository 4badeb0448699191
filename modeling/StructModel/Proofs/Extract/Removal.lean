import StructModel.Proofs.Extract.LeftOut
import StructModel.Proofs.Extract.Members

/-!
# Files without a field that is left out

A field declaration that is left out can stand in a struct at any depth of a type. Without it the
type comes to the same, and so the file has the same models or the same error. The texts and lines
around it may change with it. Nothing inside a declaration that is left out matters either.
-/

namespace StructModel

open StructModel.Go

/-- Whether a type has other types for its parts, parentheses aside. -/
def Go.TypeExpr.isComposite (t : TypeExpr) : Bool :=
  match t.unparen with
  | .pointer _ | .slice _ | .array _ | .map _ _ | .struct _ => true
  | _ => false

namespace Extract

open Extractor

variable {o : Options}

/-- One type is another one without a field declaration that is left out. When the declaration
stands inside another one that is left out, with it and without it, that one may be any. -/
inductive Removal (o : Options) : TypeExpr → TypeExpr → Prop
  | here {before after : List FieldDecl} {d : FieldDecl}
      (h : AreLeftOut o (entries after) d.entries) :
      Removal o (.struct (before ++ d :: after)) (.struct (before ++ after))
  | inside {before after : List FieldDecl} {d d' : FieldDecl}
      (h : AreLeftOut o (entries after) d.entries) (h' : AreLeftOut o (entries after) d'.entries) :
      Removal o (.struct (before ++ d :: after)) (.struct (before ++ d' :: after))
  | field {before after : List FieldDecl} {d : FieldDecl} {type : TypeExpr}
      (h : Removal o d.type type) :
      Removal o (.struct (before ++ d :: after))
        (.struct (before ++ { d with type := type } :: after))
  | pointer {t u : TypeExpr} (h : Removal o t u) : Removal o (.pointer t) (.pointer u)
  | slice {t u : TypeExpr} (h : Removal o t u) : Removal o (.slice t) (.slice u)
  | array {t u : TypeExpr} (h : Removal o t u) : Removal o (.array t) (.array u)
  | key {t u : TypeExpr} (v : TypeExpr) (h : Removal o t u) : Removal o (.map t v) (.map u v)
  | value (k : TypeExpr) {t u : TypeExpr} (h : Removal o t u) : Removal o (.map k t) (.map k u)
  | paren {t u : TypeExpr} (h : Removal o t u) : Removal o (.paren t) (.paren u)

section Types

variable {t u : TypeExpr}

theorem isByte_of_isComposite (h : t.isComposite = true) : isByte t = false := by
  unfold TypeExpr.isComposite at h
  unfold isByte
  cases hunparen : t.unparen <;> simp_all

theorem isDynamic_of_isComposite (h : t.isComposite = true) : isDynamic t = false := by
  unfold TypeExpr.isComposite at h
  unfold isDynamic
  cases hunparen : t.unparen <;> simp_all

theorem ne_name_of_isComposite (h : t.isComposite = true) (n : String) : t ≠ .name n := by
  rintro rfl
  cases h

theorem isString_of_isComposite (h : t.isComposite = true) : isString t = false := by
  unfold isString
  split
  · cases h
  · rfl

/-- Both types have parts. -/
theorem Removal.isComposite (h : Removal o t u) :
    t.isComposite = true ∧ u.isComposite = true := by
  induction h with
  | paren h ih => simpa [TypeExpr.isComposite] using ih
  | _ => exact ⟨rfl, rfl⟩

theorem Removal.isStruct (h : Removal o t u) : u.isStruct = t.isStruct := by
  cases h <;> rfl

theorem Removal.mapElement_key (h : Removal o t u) (v : TypeExpr) :
    mapElement u v = mapElement t v := by
  unfold mapElement
  rw [isString_of_isComposite h.isComposite.1, isString_of_isComposite h.isComposite.2]

theorem Removal.mapElement_value (h : Removal o t u) (k : TypeExpr) :
    mapElement k u = mapElement k t := by
  unfold mapElement
  rw [isString_of_isComposite h.isComposite.1, isString_of_isComposite h.isComposite.2,
    isDynamic_of_isComposite h.isComposite.1, isDynamic_of_isComposite h.isComposite.2]

theorem settledFields_congr {before after : List FieldDecl} {d f : FieldDecl}
    (h : f.entries.map (fieldsOfEntry o) = d.entries.map (fieldsOfEntry o)) :
    settledFields o (entries (before ++ f :: after)) =
      settledFields o (entries (before ++ d :: after)) := by
  simp only [settledFields, fieldsOfEntries, entries, List.flatMap_append, List.flatMap_cons,
    List.map_append, h]

/-- A type comes to the same when a field declaration that is left out is taken away from it. -/
theorem Removal.result_build (h : Removal o t u) : (build o u).result = (build o t).result := by
  induction h with
  | here h =>
      rw [result_build_struct, result_build_struct, settledFields_removeDecl h]
  | inside h h' =>
      rw [result_build_struct, result_build_struct, settledFields_removeDecl h,
        settledFields_removeDecl h']
  | @field before after d type h ih =>
      have hentries : ({ d with type := type } : FieldDecl).entries.map (fieldsOfEntry o) =
          d.entries.map (fieldsOfEntry o) := by
        refine map_fieldsOfEntry_congr rfl rfl ih fun indirect hbinding n => ?_
        exact iff_of_false (ne_name_of_isComposite h.isComposite.2 n)
          (ne_name_of_isComposite h.isComposite.1 n)
      rw [result_build_struct, result_build_struct, settledFields_congr hentries]
  | pointer h ih => rw [build, build, result_layer, result_layer, ih]
  | slice h ih =>
      rw [build, build, isByte_of_isComposite h.isComposite.1,
        isByte_of_isComposite h.isComposite.2]
      simp only [Bool.false_eq_true, if_false, result_layer, ih]
  | array h ih =>
      rw [build, build, isByte_of_isComposite h.isComposite.1,
        isByte_of_isComposite h.isComposite.2]
      simp only [Bool.false_eq_true, if_false, result_layer, ih]
  | key v h ih => rw [build, build, h.mapElement_key]
  | value k h ih => rw [build, build, h.mapElement_value]
  | paren h ih =>
      rw [build_paren, build_paren]
      exact ih

end Types

section Files

variable {file : String} {s s' : TypeSpec}

/-- What a specification gives to the models of a file, nothing if it is not a member. -/
def specModels (o : Options) (file : String) (s : TypeSpec) :
    List (Except ExtractError (List TypeModel)) :=
  if isMember o s then [(extract o (.ofSpecs file [s])).map Extraction.models] else []

theorem flatMap_specModels (ss : List TypeSpec) :
    ss.flatMap (specModels o file) =
      (ss.filter (isMember o)).map fun s =>
        (extract o (.ofSpecs file [s])).map Extraction.models := by
  induction ss with
  | nil => rfl
  | cons s ss ih =>
      rw [List.flatMap_cons, ih, specModels]
      cases hs : isMember o s with
      | true =>
          rw [List.filter_cons_of_pos hs]
          rfl
      | false =>
          rw [List.filter_cons_of_neg (Bool.not_eq_true _ ▸ hs)]
          rfl

/-- The models of a file are those that its specifications give, in turn. -/
theorem models_extract (f : SourceFile) :
    (extract o f).map Extraction.models =
      (inTurn (f.specs.flatMap (specModels o f.name))).map List.flatten := by
  have hmodels : f.specs.flatMap (specModels o f.name) =
      (memberOutcomes o f).map (Except.map Extraction.models) := by
    rw [flatMap_specModels, memberOutcomes, members, List.map_map]
    rfl
  rw [extract_eq_inTurn, hmodels, inTurn_map]
  rcases inTurn (memberOutcomes o f) with e | parts
  · rfl
  · exact congrArg Except.ok List.flatMap_def

theorem result_extractFields_of_result_build {ds ds' : List FieldDecl}
    (h : (build o (.struct ds')).result = (build o (.struct ds)).result) :
    (extractFields o ds').result = (extractFields o ds).result := by
  rw [result_build_struct, result_build_struct] at h
  rw [result_extractFields, result_extractFields]
  cases hds' : settledFields o (entries ds') <;> cases hds : settledFields o (entries ds) <;>
    simp_all [Except.map]

/-- Only the name, the type parameters and what the type comes to have a part in the models. -/
theorem specModels_congr (hname : s'.name = s.name) (hgeneric : s'.isGeneric = s.isGeneric)
    (hstruct : s'.type.isStruct = s.type.isStruct)
    (hresult : (build o s'.type).result = (build o s.type).result) :
    specModels o file s' = specModels o file s := by
  have hmember : isMember o s' = isMember o s := by
    rw [isMember, isMember, hname, hgeneric, hstruct]
  rw [specModels, specModels, hmember]
  cases hs : isMember o s with
  | false => rfl
  | true =>
      obtain ⟨ds, htype⟩ := exists_struct_of_isMember hs
      obtain ⟨ds', htype'⟩ := exists_struct_of_isMember (hmember.trans hs)
      rw [htype, htype'] at hresult
      rw [extract_member hs htype, extract_member (hmember.trans hs) htype',
        result_extractFields_of_result_build hresult, hname]
      rcases (extractFields o ds).result with c | _ | ⟨f, fs⟩
      · rfl
      · rfl
      · simp only [contribution, hname, Except.map]

theorem specModels_relocate (r : Relocation) (s : TypeSpec) :
    specModels o file (s.relocate r) = specModels o file s := by
  refine specModels_congr rfl rfl ?_ (result_build_relocate r o s.type)
  unfold TypeSpec.relocate
  cases s.type <;> rfl

/-- The second file is the first one without a field declaration that is left out, which stands
somewhere in the type of one of its specifications. The texts and lines may be any others. Where the
declaration stands in a part that the type does not keep, such as the parameters of a function, the
type stays as it is. -/
def IsRemoval (o : Options) (f g : SourceFile) : Prop :=
  g.name = f.name ∧ ∃ (before after : List TypeSpec) (s : TypeSpec) (type : TypeExpr),
    f.specs = before ++ s :: after ∧ (type = s.type ∨ Removal o s.type type) ∧
      g.specs.map (TypeSpec.relocate .forget) =
        (before ++ { s with type := type } :: after).map (TypeSpec.relocate .forget)

/-- Without a field declaration that is left out a file has the same models, in the same order, or
the same error. -/
theorem models_of_isRemoval {f g : SourceFile} (h : IsRemoval o f g) :
    (extract o g).map Extraction.models = (extract o f).map Extraction.models := by
  obtain ⟨hname, before, after, s, type, hspecs, hremoval, hforget⟩ := h
  have hrelocate : ∀ ss : List TypeSpec, ss.flatMap (specModels o f.name) =
      (ss.map (TypeSpec.relocate .forget)).flatMap (specModels o f.name) := by
    intro ss
    simp only [List.flatMap_map, specModels_relocate]
  have hspec : specModels o f.name { s with type := type } = specModels o f.name s := by
    rcases hremoval with rfl | hremoval
    · rfl
    · exact specModels_congr rfl rfl hremoval.isStruct hremoval.result_build
  rw [models_extract, models_extract, hname, hrelocate, hforget, ← hrelocate, hspecs,
    List.flatMap_append, List.flatMap_append, List.flatMap_cons, List.flatMap_cons, hspec]

/-- A file with a struct that has rows of structs with the given fields. -/
def rowsFile (ds : List FieldDecl) : SourceFile where
  name := "rows.go"
  text := ""
  items := [.package, .types [⟨"Table", 3, false, false,
    .struct [⟨.named "Rows" [], .slice (.struct ds), "[]struct", none, 4⟩], ""⟩]]

/-- A field whose key is that of a later one. -/
def oldDecl : FieldDecl := ⟨.named "Old" [], .name "string", "string", some "`msg:\"id\"`", 5⟩

/-- Two fields of an unsupported type. -/
def hooksDecl : FieldDecl := ⟨.named "before" ["after"], .other .function, "func()", none, 6⟩

def idDecl : FieldDecl := ⟨.named "ID" [], .name "int", "int", some "`msg:\"id\"`", 7⟩

theorem isRemoval_rowsFile {d : FieldDecl} {ds : List FieldDecl}
    (h : AreLeftOut o (entries ds) d.entries) : IsRemoval o (rowsFile (d :: ds)) (rowsFile ds) := by
  have hrows : Removal o (.slice (.struct (d :: ds))) (.slice (.struct ds)) :=
    Removal.slice (@Removal.here o [] ds d h)
  have htable := @Removal.field o [] [] ⟨.named "Rows" [], _, "[]struct", none, 4⟩ _ hrows
  exact ⟨rfl, [], [], _, _, rfl, Or.inr htable, rfl⟩

theorem models_of_isRemoval_rowsFile :
    IsRemoval { duplicateKeys := .lastWins } (rowsFile [oldDecl, hooksDecl, idDecl])
        (rowsFile [hooksDecl, idDecl]) ∧
      IsRemoval { duplicateKeys := .lastWins } (rowsFile [hooksDecl, idDecl])
        (rowsFile [idDecl]) ∧
      (extract { duplicateKeys := .lastWins } (rowsFile [oldDecl, hooksDecl, idDecl])).map
          Extraction.models =
        .ok [.ofFields "Table" [⟨"Rows", "Rows", .sequence (.aggregate
          [⟨"ID", "id", .base .int⟩])⟩]] := by
  have hold : IsRemoval { duplicateKeys := .lastWins } (rowsFile [oldDecl, hooksDecl, idDecl])
      (rowsFile [hooksDecl, idDecl]) := by
    refine isRemoval_rowsFile ⟨IsLeftOut.superseded rfl ⟨idDecl, "ID"⟩ ?_
      ⟨"Old", "id", .base .string⟩ ⟨"ID", "id", .base .int⟩ ?_ ?_ rfl, trivial⟩
    · simp [entries, idDecl, FieldDecl.entries]
    · cbv
    · cbv
  have hhooks : IsRemoval { duplicateKeys := .lastWins } (rowsFile [hooksDecl, idDecl])
      (rowsFile [idDecl]) :=
    isRemoval_rowsFile ⟨IsLeftOut.unsupported rfl, IsLeftOut.unsupported rfl, trivial⟩
  refine ⟨hold, hhooks, ?_⟩
  rw [← models_of_isRemoval hold, ← models_of_isRemoval hhooks]
  cbv

end Files

end Extract

end StructModel
