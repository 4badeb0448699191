import StructModel.Extract.Declarations
import StructModel.Proofs.Extract.Runs

/-!
# Extraction by declarations

A file is extracted when each of its declarations is, and then it gives what they give, one after
the other.
-/

namespace StructModel.Extract

open StructModel.Go Extractor

variable {o : Options} {file : String}

/-- The extraction of a declaration in terms of the run of its fields. -/
theorem extractDecl_eq (d : AggregateDecl) :
    extractDecl o file d =
      match (extractFields o d.fields).result with
      | .error c => .error (clashError file d c)
      | .ok fields => .ok ⟨(modelOf d fields).toList,
          (extractFields o d.fields).notes.map (Note.diagnostic d.name) ++ [summary d fields]⟩ := by
  have h : extractFields o d.fields {} =
      ((extractFields o d.fields).result, ⟨[], (extractFields o d.fields).notes⟩) := by
    simpa using run_eq (x := extractFields o d.fields) {}
  rw [extractDecl, h]
  cases (extractFields o d.fields).result <;> rfl

/-- What the first declaration gives comes before what the others give, if all of them give
something. -/
theorem extractDecls_cons (d : AggregateDecl) (ds : List AggregateDecl) :
    extractDecls o file (d :: ds) =
      (extractDecl o file d).bind fun x => (extractDecls o file ds).map x.append := by
  rw [extractDecls]
  cases extractDecl o file d with
  | error e => rfl
  | ok x => cases extractDecls o file ds <;> rfl

theorem extractDecls_cons_eq_ok {d : AggregateDecl} {ds : List AggregateDecl} {x : Extraction}
    (h : extractDecls o file (d :: ds) = .ok x) :
    ∃ y z, extractDecl o file d = .ok y ∧ extractDecls o file ds = .ok z ∧ x = y.append z := by
  rw [extractDecls_cons] at h
  cases hd : extractDecl o file d with
  | error e =>
      rw [hd] at h
      cases h
  | ok y =>
      cases hds : extractDecls o file ds with
      | error e =>
          rw [hd, hds] at h
          cases h
      | ok z =>
          rw [hd, hds] at h
          exact ⟨y, z, rfl, rfl, (Except.ok.inj h).symm⟩

/-- Each model comes from a declaration whose fields it has. -/
theorem exists_decl_of_mem_models {ds : List AggregateDecl} {x : Extraction}
    (h : extractDecls o file ds = .ok x) {m : TypeModel} (hm : m ∈ x.models) :
    ∃ d ∈ ds, ∃ fields, (extractFields o d.fields).result = .ok fields ∧ fields ≠ [] ∧
      m = TypeModel.ofFields d.name fields := by
  induction ds generalizing x with
  | nil =>
      cases h
      cases hm
  | cons d ds ih =>
      obtain ⟨y, z, hy, hz, rfl⟩ := extractDecls_cons_eq_ok h
      rcases List.mem_append.mp hm with hm | hm
      · refine ⟨d, List.mem_cons_self, ?_⟩
        rw [extractDecl_eq] at hy
        cases hr : (extractFields o d.fields).result with
        | error c =>
            rw [hr] at hy
            cases hy
        | ok fields =>
            rw [hr] at hy
            cases hy
            have hm : modelOf d fields = some m := Option.mem_toList.mp hm
            unfold modelOf at hm
            split at hm
            · cases hm
            · rename_i hne
              cases hm
              exact ⟨fields, rfl, by simpa using hne, rfl⟩
      · obtain ⟨e, he, hfields⟩ := ih hz hm
        exact ⟨e, List.mem_cons_of_mem d he, hfields⟩

/-- A file gives the warnings on its generic declarations before what the others give. -/
theorem extract_eq (f : SourceFile) :
    extract o f = (extractDecls o f.name (aggregateDecls o f.items)).map
      (Extraction.append ⟨[], genericWarnings o f.items⟩) := by
  rw [extract]
  cases extractDecls o f.name (aggregateDecls o f.items) <;> rfl

theorem extract_eq_ok {f : SourceFile} {x : Extraction} (h : extract o f = .ok x) :
    ∃ y, extractDecls o f.name (aggregateDecls o f.items) = .ok y ∧
      x = ⟨y.models, genericWarnings o f.items ++ y.diagnostics⟩ := by
  rw [extract] at h
  split at h
  · cases h
  · exact ⟨_, ‹_›, (Except.ok.inj h).symm⟩

end StructModel.Extract
