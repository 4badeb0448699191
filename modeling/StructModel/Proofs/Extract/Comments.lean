import Mathlib.Data.List.Basic
import StructModel.Proofs.Extract.Declarations
import StructModel.Proofs.Extract.Relocation
import StructModel.Proofs.Go.Outline

/-!
# Comments and extraction

The outline of an extraction has its models and says of each diagnostic how severe it is and which
declaration it is on. It does not depend on where and how types are written, and so comments have no
part in it, wherever they are put into a tree without errors.
-/

namespace StructModel

open StructModel.Go StructModel.Extract

namespace Extract

open Extractor

/-- The severity of a diagnostic and the declaration it is on. -/
def heading (d : Diagnostic) : Severity × Option String := (d.severity, d.declaration)

/-- The models, and the headings of the diagnostics in their order. -/
def Extraction.outline (x : Extraction) : List TypeModel × List (Severity × Option String) :=
  (x.models, x.diagnostics.map heading)

theorem Extraction.outline_append (x y : Extraction) :
    (x.append y).outline = (x.outline.1 ++ y.outline.1, x.outline.2 ++ y.outline.2) := by
  simp only [outline, append, List.map_append]

/-- The declaration with its texts and lines, and those of its fields, relocated. -/
def AggregateDecl.relocate (r : Relocation) (d : AggregateDecl) : AggregateDecl where
  name := d.name
  line := r.line d.line
  fields := relocateFields r d.fields
  text := r.text d.text

section Relocated

variable (r : Relocation) {o : Options} {file : String}

theorem heading_diagnostic_relocate (name : String) (n : Note) :
    heading ((n.relocate r).diagnostic name) = heading (n.diagnostic name) := by
  obtain ⟨path, leaf, cause, line⟩ := n
  cases cause <;> rfl

theorem heading_summary_relocate (d : AggregateDecl) (fields : List Field) :
    heading (summary (d.relocate r) fields) = heading (summary d fields) := by
  cases fields <;> rfl

theorem outline_extractDecl_relocate (d : AggregateDecl) :
    (extractDecl o file (d.relocate r)).map Extraction.outline =
      (extractDecl o file d).map Extraction.outline := by
  have hresult : (extractFields o (d.relocate r).fields).result =
      (extractFields o d.fields).result := result_extractFields_relocate r o d.fields
  have hnotes : (extractFields o (d.relocate r).fields).notes =
      (extractFields o d.fields).notes.map (Note.relocate r) :=
    (relocates_extractFields r o d.fields).notes
  have hheadings : ((extractFields o (d.relocate r).fields).notes.map
      (Note.diagnostic d.name)).map heading =
        ((extractFields o d.fields).notes.map (Note.diagnostic d.name)).map heading := by
    rw [hnotes, List.map_map, List.map_map, List.map_map]
    exact List.map_congr_left fun n _ => heading_diagnostic_relocate r d.name n
  have hname : (d.relocate r).name = d.name := rfl
  rw [extractDecl_eq, extractDecl_eq, hresult, hname]
  cases (extractFields o d.fields).result with
  | error c => rfl
  | ok fields =>
      simp only [Except.map, Extraction.outline, List.map_append, List.map_singleton, hheadings,
        heading_summary_relocate]
      rfl

theorem outline_extractDecls_cons (d : AggregateDecl) (ds : List AggregateDecl) :
    (extractDecls o file (d :: ds)).map Extraction.outline =
      ((extractDecl o file d).map Extraction.outline).bind fun x =>
        ((extractDecls o file ds).map Extraction.outline).map fun y =>
          (x.1 ++ y.1, x.2 ++ y.2) := by
  rw [extractDecls_cons]
  rcases extractDecl o file d with e | x
  · rfl
  rcases extractDecls o file ds with e | y
  · rfl
  · exact congrArg Except.ok (Extraction.outline_append x y)

theorem outline_extractDecls_relocate (ds : List AggregateDecl) :
    (extractDecls o file (ds.map (AggregateDecl.relocate r))).map Extraction.outline =
      (extractDecls o file ds).map Extraction.outline := by
  induction ds with
  | nil => rfl
  | cons d ds ih =>
      rw [List.map_cons, outline_extractDecls_cons, outline_extractDecls_cons,
        outline_extractDecl_relocate, ih]

theorem aggregateOfSpec?_relocate (s : TypeSpec) :
    aggregateOfSpec? (s.relocate r) = (aggregateOfSpec? s).map (AggregateDecl.relocate r) := by
  unfold aggregateOfSpec? TypeSpec.relocate
  cases s.type <;> rfl

theorem typeSpecs_relocate (i : TopLevel) :
    typeSpecs (i.relocate r) = (typeSpecs i).map (TypeSpec.relocate r) := by
  cases i <;> rfl

theorem selectedSpecs_relocate (items : List TopLevel) :
    selectedSpecs o (items.map (TopLevel.relocate r)) =
      (selectedSpecs o items).map (TypeSpec.relocate r) := by
  have hspecs : (items.map (TopLevel.relocate r)).flatMap typeSpecs =
      (items.flatMap typeSpecs).map (TypeSpec.relocate r) := by
    rw [List.flatMap_map, List.map_flatMap]
    exact List.flatMap_congr fun i _ => typeSpecs_relocate r i
  rw [selectedSpecs, selectedSpecs, hspecs, List.filter_map]
  refine congrArg _ (List.filter_congr fun s _ => ?_)
  simp only [Function.comp, aggregateOfSpec?_relocate, Option.isSome_map]
  rfl

theorem aggregateDecls_relocate (items : List TopLevel) :
    aggregateDecls o (items.map (TopLevel.relocate r)) =
      (aggregateDecls o items).map (AggregateDecl.relocate r) := by
  have hplain : ((fun s : TypeSpec => !s.isGeneric) ∘ TypeSpec.relocate r) =
      fun s => !s.isGeneric := rfl
  rw [aggregateDecls, aggregateDecls, selectedSpecs_relocate, List.filter_map, hplain,
    List.filterMap_map, List.map_filterMap]
  exact List.filterMap_congr fun s _ => aggregateOfSpec?_relocate r s

theorem heading_genericWarnings_relocate (items : List TopLevel) :
    (genericWarnings o (items.map (TopLevel.relocate r))).map heading =
      (genericWarnings o items).map heading := by
  have hgeneric : TypeSpec.isGeneric ∘ TypeSpec.relocate r = TypeSpec.isGeneric := rfl
  rw [genericWarnings, genericWarnings, selectedSpecs_relocate, List.filter_map, hgeneric,
    List.map_map, List.map_map, List.map_map]
  rfl

theorem outline_extract_eq (f : SourceFile) :
    (extract o f).map Extraction.outline =
      ((extractDecls o f.name (aggregateDecls o f.items)).map Extraction.outline).map fun y =>
        (y.1, (genericWarnings o f.items).map heading ++ y.2) := by
  rw [extract_eq]
  cases extractDecls o f.name (aggregateDecls o f.items) with
  | error e => rfl
  | ok x => exact congrArg Except.ok (Extraction.outline_append ⟨[], _⟩ x)

theorem outline_extract_relocate {f g : SourceFile} (hname : g.name = f.name)
    (hitems : g.items = f.items.map (TopLevel.relocate r)) :
    (extract o g).map Extraction.outline = (extract o f).map Extraction.outline := by
  rw [outline_extract_eq, outline_extract_eq, hname, hitems, aggregateDecls_relocate,
    outline_extractDecls_relocate, heading_genericWarnings_relocate]

/-- Files with the same declarations but for texts and lines have the same outline. -/
theorem outline_extract_congr {f g : SourceFile} (hname : g.name = f.name)
    (hitems : g.items.map (TopLevel.relocate r) = f.items.map (TopLevel.relocate r)) :
    (extract o g).map Extraction.outline = (extract o f).map Extraction.outline := by
  let common : SourceFile := ⟨f.name, "", f.items.map (TopLevel.relocate r)⟩
  calc
    (extract o g).map Extraction.outline = (extract o common).map Extraction.outline :=
      (outline_extract_relocate r (f := g) (g := common) hname.symm hitems.symm).symm
    _ = (extract o f).map Extraction.outline := outline_extract_relocate r rfl rfl

end Relocated

end Extract

theorem hasExports_relocate (r : Relocation) (items : List TopLevel) :
    hasExports (items.map (TopLevel.relocate r)) = hasExports items := by
  simp [hasExports, Function.comp_def]

/-- A tree without errors and the same tree with comments put in, wherever they stand, are both
refused for want of exports or both taken. Under all options the same extraction ends with the same
error, or the models are the same and so are the diagnostics, one by one, in severity and in the
declaration they are on. -/
theorem outline_extract_addsComments {t t' : SyntaxTree} (ht : IsErrorFree t)
    (h : AddsComments t t') (o : Options) (text text' name : String) :
    IsErrorFree t' ∧
      ((SourceFile.ofTree text' name t').bind (extract o)).map Extraction.outline =
        ((SourceFile.ofTree text name t).bind (extract o)).map Extraction.outline ∧
      (extract o ⟨name, text', topLevel t'⟩).map Extraction.outline =
        (extract o ⟨name, text, topLevel t⟩).map Extraction.outline := by
  have hitems := h.relocate_topLevel
  have hextract : (extract o ⟨name, text', topLevel t'⟩).map Extraction.outline =
      (extract o ⟨name, text, topLevel t⟩).map Extraction.outline :=
    outline_extract_congr .forget rfl hitems
  have hexports : hasExports (topLevel t') = hasExports (topLevel t) := by
    rw [← hasExports_relocate .forget (topLevel t'), hitems, hasExports_relocate]
  refine ⟨h.isErrorFree ht, ?_, hextract⟩
  simp only [SourceFile.ofTree, hexports]
  cases hasExports (topLevel t) with
  | true => exact hextract
  | false => rfl

/-- A struct type with comments in front of all of its parts. -/
theorem outline_extract_addsComments_groupTree :
    ((SourceFile.ofTree "" "group.go" (strewn ⟨" ", "/* c */", 1⟩ (groupTree "B"))).bind
      (extract {})).map Extraction.outline =
        .ok ([.ofFields "B" [⟨"F", "F", .base .int⟩]], [(.notice, some "B")]) := by
  obtain ⟨-, hextract, -⟩ := outline_extract_addsComments (isErrorFree_groupTree "B")
    (addsComments_strewn ⟨" ", "/* c */", 1⟩ (groupTree "B")) {} "" "" "group.go"
  rw [hextract]
  decide

end StructModel
