import Mathlib
import StructModel.Proofs.Extract.Outcomes
import StructModel.Proofs.Extract.Relocation
import StructModel.Proofs.Extract.Selection

/-!
# Extraction member by member

The members of a file are its struct types that take part and have no type parameters. A file comes
to what its members come to when each of them is extracted on its own, one after the other, behind
the warnings on the generic ones. What a member gives stays the same, up to line numbers, whatever
stands around it.
-/

namespace StructModel

open StructModel.Go

/-- Whether a type is a struct type itself. -/
def Go.TypeExpr.isStruct : TypeExpr → Bool
  | .struct _ => true
  | _ => false

namespace Extract

open Extractor

section Members

variable (o : Options)

/-- Whether a specification of a struct type takes part and has no type parameters. -/
def isMember (s : TypeSpec) : Bool := s.type.isStruct && !s.isGeneric && isSelected o s.name

/-- Whether a specification of a struct type takes part and has type parameters. -/
def isSkipped (s : TypeSpec) : Bool := s.type.isStruct && s.isGeneric && isSelected o s.name

def members (f : SourceFile) : List TypeSpec := f.specs.filter (isMember o)

def skipped (f : SourceFile) : List TypeSpec := f.specs.filter (isSkipped o)

/-- What the members of a file come to, each of them on its own. -/
def memberOutcomes (f : SourceFile) : List (Except ExtractError Extraction) :=
  (members o f).map fun s => extract o (.ofSpecs f.name [s])

end Members

/-- The warning on a struct type with type parameters. -/
def skipWarning (s : TypeSpec) : Diagnostic where
  severity := .warning
  message := s.name ++ " skipped: generic declarations are not supported"
  declaration := s.name
  line := s.line

/-- What a member with the given fields and notes gives: the diagnostics of its fields and one
summary, and a model if there are fields. -/
def contribution (s : TypeSpec) (notes : List Note) : List Field → Extraction
  | [] => ⟨[], notes.map (Note.diagnostic s.name) ++
      [⟨.warning, s.name ++ " has no eligible fields", s.name, none, s.line⟩]⟩
  | f :: fs =>
    let model := TypeModel.ofFields s.name (f :: fs)
    ⟨[model], notes.map (Note.diagnostic s.name) ++
      [⟨.notice, "parsed " ++ s.name ++ " (" ++ toString model.fields.length ++ " fields)", s.name,
        none, s.line⟩]⟩

variable {o : Options} {file : String}

theorem extractDecls_eq_inTurn (ds : List AggregateDecl) :
    extractDecls o file ds = (inTurn (ds.map (extractDecl o file))).map fun parts =>
      ⟨parts.flatMap Extraction.models, parts.flatMap Extraction.diagnostics⟩ := by
  induction ds with
  | nil => rfl
  | cons d ds ih =>
      rw [extractDecls_cons, List.map_cons, inTurn_cons, ih]
      rcases extractDecl o file d with e | x
      · rfl
      rcases inTurn (ds.map (extractDecl o file)) with e | parts <;> rfl

theorem aggregateDecls_eq (f : SourceFile) :
    aggregateDecls o f.items = (members o f).filterMap aggregateOfSpec? := by
  rw [aggregateDecls, selectedSpecs_eq, members, List.filter_filter]
  refine congrArg _ (List.filter_congr fun s _ => ?_)
  unfold isMember aggregateOfSpec?
  cases s.type <;> simp [TypeExpr.isStruct]

theorem genericWarnings_eq (f : SourceFile) :
    genericWarnings o f.items = (skipped o f).map skipWarning := by
  have hfilter : (selectedSpecs o f.items).filter TypeSpec.isGeneric = skipped o f := by
    rw [selectedSpecs_eq, skipped, List.filter_filter]
    refine List.filter_congr fun s _ => ?_
    unfold isSkipped aggregateOfSpec?
    cases s.type <;> simp [TypeExpr.isStruct]
  rw [genericWarnings, hfilter]
  rfl

section Alone

variable {s : TypeSpec}

theorem members_singleton (hs : isMember o s = true) : members o (.ofSpecs file [s]) = [s] := by
  rw [members, SourceFile.specs_ofSpecs]
  simp [hs]

theorem skipped_singleton (hs : isMember o s = true) : skipped o (.ofSpecs file [s]) = [] := by
  simp only [isMember, Bool.and_eq_true, Bool.not_eq_true'] at hs
  rw [skipped, SourceFile.specs_ofSpecs]
  simp [isSkipped, hs.1.2]

theorem exists_struct_of_isMember (hs : isMember o s = true) : ∃ ds, s.type = .struct ds := by
  simp only [isMember, Bool.and_eq_true] at hs
  have hstruct := hs.1.1
  unfold TypeExpr.isStruct at hstruct
  split at hstruct
  · exact ⟨_, ‹_›⟩
  · cases hstruct

theorem aggregateOfSpec?_of_struct {ds : List FieldDecl} (htype : s.type = .struct ds) :
    aggregateOfSpec? s = some ⟨s.name, s.line, ds, s.text⟩ := by
  rw [aggregateOfSpec?, htype]

/-- A member on its own comes to what its declaration comes to. -/
theorem extract_singleton (hs : isMember o s = true) {ds : List FieldDecl}
    (htype : s.type = .struct ds) :
    extract o (.ofSpecs file [s]) = extractDecl o file ⟨s.name, s.line, ds, s.text⟩ := by
  rw [extract_eq, aggregateDecls_eq, genericWarnings_eq, members_singleton hs,
    skipped_singleton hs, List.filterMap_cons_some (aggregateOfSpec?_of_struct htype),
    extractDecls_cons, SourceFile.name_ofSpecs]
  rcases extractDecl o file ⟨s.name, s.line, ds, s.text⟩ with e | x
  · rfl
  · simp [Except.bind, Except.map, extractDecls, Extraction.append]

/-- This is told from its fields. -/
theorem extract_member (hs : isMember o s = true) {ds : List FieldDecl}
    (htype : s.type = .struct ds) :
    extract o (.ofSpecs file [s]) =
      match (extractFields o ds).result with
      | .error c => .error (.duplicateKey file (dotted (s.name :: c.path)) c.key)
      | .ok fields => .ok (contribution s (extractFields o ds).notes fields) := by
  rw [extract_singleton hs htype, extractDecl_eq]
  rcases (extractFields o ds).result with c | _ | ⟨f, fs⟩ <;> rfl

theorem extract_member_eq_error_iff (hs : isMember o s = true) {ds : List FieldDecl}
    (htype : s.type = .struct ds) {e : ExtractError} :
    extract o (.ofSpecs file [s]) = .error e ↔ ∃ c, (extractFields o ds).result = .error c ∧
      e = .duplicateKey file (dotted (s.name :: c.path)) c.key := by
  rw [extract_member hs htype]
  cases (extractFields o ds).result <;> simp [eq_comm]

end Alone

/-- The declarations of members come to what these come to on their own. -/
theorem map_extractDecl_of_isMember {ss : List TypeSpec} (h : ∀ s ∈ ss, isMember o s = true) :
    (ss.filterMap aggregateOfSpec?).map (extractDecl o file) =
      ss.map fun s => extract o (.ofSpecs file [s]) := by
  induction ss with
  | nil => rfl
  | cons s ss ih =>
      have hs := h s List.mem_cons_self
      obtain ⟨ds, htype⟩ := exists_struct_of_isMember hs
      rw [List.filterMap_cons_some (aggregateOfSpec?_of_struct htype), List.map_cons,
        List.map_cons, extract_singleton hs htype,
        ih fun t ht => h t (List.mem_cons_of_mem s ht)]

/-- A file comes to what its members come to in turn. -/
theorem extract_eq_inTurn (f : SourceFile) :
    extract o f = (inTurn (memberOutcomes o f)).map fun parts =>
      ⟨parts.flatMap Extraction.models,
        (skipped o f).map skipWarning ++ parts.flatMap Extraction.diagnostics⟩ := by
  have hmembers : ∀ s ∈ members o f, isMember o s = true := fun s hs => (List.mem_filter.mp hs).2
  rw [extract_eq, aggregateDecls_eq, genericWarnings_eq, extractDecls_eq_inTurn,
    map_extractDecl_of_isMember hmembers, memberOutcomes]
  rcases inTurn ((members o f).map fun s => extract o (.ofSpecs f.name [s])) with e | parts <;> rfl

section Errors

variable {f : SourceFile} {e : ExtractError}

theorem exists_member_of_extract_eq_error (h : extract o f = .error e) :
    ∃ s ∈ members o f, extract o (.ofSpecs f.name [s]) = .error e := by
  rw [extract_eq_inTurn, map_eq_error_iff] at h
  exact List.mem_map.mp (mem_of_inTurn_eq_error h)

theorem exists_extract_eq_error {s : TypeSpec} (hs : s ∈ members o f)
    (h : extract o (.ofSpecs f.name [s]) = .error e) : ∃ e', extract o f = .error e' := by
  have hmem : .error e ∈ memberOutcomes o f := List.mem_map.mpr ⟨s, hs, h⟩
  obtain ⟨e', he'⟩ := exists_inTurn_eq_error hmem
  exact ⟨e', by rw [extract_eq_inTurn, map_eq_error_iff, he']⟩

end Errors

end Extract

namespace Extract

open Extractor

section Moved

variable {o : Options} {file : String} (line : Nat → Nat)

end Moved

end Extract

end StructModel
