import Mathlib
import StructModel.Proofs.Extract.Dropped

/-!
# The two policies agree

A file is extracted under `error` exactly when its extraction under `lastWins` drops no field, and
then with the same outcome. Otherwise the error is the one that the first drop warning tells of.
-/

namespace StructModel.Extract

open StructModel.Go Extractor

/-- What a file comes to under `lastWins` and under `error`. -/
inductive Agreement (file : String) :
    Except ExtractError Extraction → Except ExtractError Extraction → Prop
  | same (x : Extraction) (hno : ∀ d ∈ x.diagnostics, ∀ key, ¬ d.Drops key) :
      Agreement file (.ok x) (.ok x)
  | clash (x : Extraction) (d : Diagnostic) (declaration : String) (path : List String)
      (leaf key : String) (hfirst : IsFirstDrop x.diagnostics d key)
      (hdeclaration : d.declaration = some declaration)
      (hfield : d.field = some (dotted (path ++ [leaf])))
      (hnames : ∀ name ∈ path ++ [leaf], '.' ∉ name.toList) :
      Agreement file (.ok x) (.error (.duplicateKey file (dotted (declaration :: path)) key))

theorem not_drops_genericWarning {s : TypeSpec} (hs : isIdentifier s.name = true) (key : String) :
    ¬ (genericWarning s).Drops key := by
  refine Diagnostic.not_drops_of_message s.name "skipped:"
    "generic declarations are not supported" rfl ?_ (by decide) rfl (by decide) key
  exact blank_notMem_of_isIdentifier hs

theorem not_drops_summary {d : AggregateDecl} (hd : isIdentifier d.name = true)
    (fields : List Field) (key : String) : ¬ (summary d fields).Drops key := by
  unfold summary
  split
  · refine Diagnostic.not_drops_of_message d.name "has" "no eligible fields" rfl ?_ (by decide) rfl
      (by decide) key
    exact blank_notMem_of_isIdentifier hd
  · rintro ⟨hseverity, _⟩
    cases hseverity

section Notes

variable {notes : List Note}

theorem not_drops_of_firstClash_eq_none (hnotes : ∀ n ∈ notes, n.IsWellNamed)
    (h : firstClash notes = none) (declaration : String) :
    ∀ d ∈ notes.map (Note.diagnostic declaration), ∀ key, ¬ d.Drops key := by
  intro d hd key hdrops
  obtain ⟨n, hn, rfl⟩ := List.mem_map.mp hd
  obtain ⟨earlier, hcause⟩ := (Note.drops_diagnostic_iff (hnotes n hn) declaration key).mp hdrops
  have hno : n.clash? = none := List.findSome?_eq_none_iff.mp h n hn
  simp [Note.clash?, hcause] at hno

/-- The note with the first clash is the first to drop a field. -/
theorem exists_of_firstClash_eq_some (hnotes : ∀ n ∈ notes, n.IsWellNamed) {c : Clash}
    (h : firstClash notes = some c) (declaration : String) :
    ∃ n ∈ notes, n.path = c.path ∧ (∃ earlier, n.cause = .superseding earlier c.key) ∧
      IsFirstDrop (notes.map (Note.diagnostic declaration)) (n.diagnostic declaration) c.key := by
  obtain ⟨before, n, after, rfl, hn, hbefore⟩ := List.findSome?_eq_some_iff.mp h
  have hmem : n ∈ before ++ n :: after := List.mem_append_right before List.mem_cons_self
  have hcause : n.path = c.path ∧ ∃ earlier, n.cause = .superseding earlier c.key := by
    unfold Note.clash? at hn
    split at hn
    · rename_i earlier key hcause
      cases hn
      exact ⟨rfl, earlier, hcause⟩
    · cases hn
  refine ⟨n, hmem, hcause.1, hcause.2, ?_, before.map (Note.diagnostic declaration),
    after.map (Note.diagnostic declaration), by simp, ?_⟩
  · exact (Note.drops_diagnostic_iff (hnotes n hmem) declaration c.key).mpr hcause.2
  · refine not_drops_of_firstClash_eq_none ?_ ?_ declaration
    · exact fun m hm => hnotes m (List.mem_append_left _ hm)
    · exact List.findSome?_eq_none_iff.mpr hbefore

end Notes

/-- What two parts come to one after the other. -/
theorem Agreement.join {file : String} {r s r' s' : Except ExtractError Extraction}
    (h : Agreement file r s) (h' : Agreement file r' s') :
    Agreement file (r.bind fun x => r'.map x.append) (s.bind fun x => s'.map x.append) := by
  cases h with
  | same x hno =>
      cases h' with
      | same y hno' =>
          refine Agreement.same _ ?_
          intro d hd
          exact (List.mem_append.mp hd).elim (hno d) (hno' d)
      | clash y d declaration path leaf key hfirst hdeclaration hfield hnames =>
          exact Agreement.clash _ d declaration path leaf key (hfirst.append_left hno) hdeclaration
            hfield hnames
  | clash x d declaration path leaf key hfirst hdeclaration hfield hnames =>
      obtain ⟨y, rfl⟩ : ∃ y, r' = .ok y := by
        cases h' with
        | same y => exact ⟨y, rfl⟩
        | clash y => exact ⟨y, rfl⟩
      exact Agreement.clash _ d declaration path leaf key (hfirst.append_right _) hdeclaration
        hfield hnames

variable (o : Options) (file : String)

theorem agreement_extractDecl {d : AggregateDecl} (hname : isIdentifier d.name = true)
    (hfields : areWellNamed d.fields = true) :
    Agreement file (extractDecl (o.under .lastWins) file d)
      (extractDecl (o.under .error) file d) := by
  have hnotes := (ensures_extractFields (o := o.under .lastWins) hfields).notes
  rw [extractDecl_eq, extractDecl_eq]
  cases lockstep_extractFields o d.fields with
  | agree fields hx hno hy hsame =>
      rw [hx, hy, hsame]
      refine Agreement.same _ ?_
      intro e he
      rcases List.mem_append.mp he with he | he
      · exact not_drops_of_firstClash_eq_none hnotes hno d.name e he
      · cases List.mem_singleton.mp he
        exact not_drops_summary hname fields
  | clash fields c hx hfirst hy =>
      obtain ⟨n, hn, hpath, ⟨earlier, hcause⟩, hdrop⟩ :=
        exists_of_firstClash_eq_some hnotes hfirst d.name
      have hwell := hnotes n hn
      rw [hx, hy]
      change Agreement file _ (.error (.duplicateKey file (dotted (d.name :: c.path)) c.key))
      rw [← hpath]
      refine Agreement.clash _ (n.diagnostic d.name) d.name n.path n.leaf c.key
        (hdrop.append_right _) rfl ?_ ?_
      · simp only [Note.diagnostic, Note.field, hcause]
        rfl
      · have hleaf : isIdentifier n.leaf = true := by
          have hcauseNamed := hwell.2
          rw [hcause] at hcauseNamed
          exact hcauseNamed.1
        intro name hmem
        rcases List.mem_append.mp hmem with hmem | hmem
        · exact dot_notMem_of_isIdentifier (hwell.1 name hmem)
        · exact dot_notMem_of_isIdentifier (List.mem_singleton.mp hmem ▸ hleaf)

theorem agreement_extractDecls {ds : List AggregateDecl}
    (hds : ∀ d ∈ ds, isIdentifier d.name = true ∧ areWellNamed d.fields = true) :
    Agreement file (extractDecls (o.under .lastWins) file ds)
      (extractDecls (o.under .error) file ds) := by
  induction ds with
  | nil =>
      refine Agreement.same ⟨[], []⟩ ?_
      intro d hd
      cases hd
  | cons d ds ih =>
      have hd := hds d List.mem_cons_self
      rw [extractDecls_cons, extractDecls_cons]
      apply Agreement.join
      · exact agreement_extractDecl o file hd.1 hd.2
      · exact ih fun e he => hds e (List.mem_cons_of_mem d he)

/-- A well named file under the two policies. -/
theorem agreement_extract {f : SourceFile} (hf : f.isWellNamed = true) :
    Agreement f.name (extract (o.under .lastWins) f) (extract (o.under .error) f) := by
  rw [extract_eq, extract_eq]
  have hgeneric : Agreement f.name (.ok ⟨[], genericWarnings o f.items⟩)
      (.ok ⟨[], genericWarnings o f.items⟩) := by
    refine Agreement.same _ ?_
    intro d hd
    obtain ⟨s, hs, rfl⟩ := List.mem_map.mp hd
    exact not_drops_genericWarning
      (SourceFile.isIdentifier_selected hf (List.mem_filter.mp hs).1)
  apply hgeneric.join
  exact agreement_extractDecls o f.name fun d hd => SourceFile.isWellNamed_decl hf hd

/-- Under `lastWins` a file is always extracted. Under `error` it is extracted exactly when that
drops no field, to the same models and diagnostics, and otherwise the error has the key of the
first drop warning and the path of the struct that the field of this warning is in. -/
theorem extract_error_of_extract_lastWins {f : SourceFile} (hf : f.isWellNamed = true) :
    ∃ x, extract { o with duplicateKeys := .lastWins } f = .ok x ∧
      (∀ y, extract { o with duplicateKeys := .error } f = .ok y ↔
        y = x ∧ ∀ d ∈ x.diagnostics, ∀ key, ¬ d.Drops key) ∧
      ∀ d key, IsFirstDrop x.diagnostics d key →
        ∃ declaration path leaf, d.declaration = some declaration ∧
          d.field = some (dotted (path ++ [leaf])) ∧
          (∀ name ∈ path ++ [leaf], '.' ∉ name.toList) ∧
          extract { o with duplicateKeys := .error } f =
            .error (.duplicateKey f.name (dotted (declaration :: path)) key) := by
  have h := agreement_extract o hf
  change ∃ x, extract (o.under .lastWins) f = .ok x ∧
    (∀ y, extract (o.under .error) f = .ok y ↔ _) ∧ ∀ d key, _ → ∃ declaration path leaf, _ ∧ _ ∧
      _ ∧ extract (o.under .error) f = _
  generalize extract (o.under .lastWins) f = r at h ⊢
  generalize extract (o.under .error) f = s at h ⊢
  cases h with
  | same x hno =>
      refine ⟨x, rfl, ?_, ?_⟩
      · intro y
        exact ⟨fun hy => ⟨(Except.ok.inj hy).symm, hno⟩, fun hy => congrArg _ hy.1.symm⟩
      · intro d key hd
        exact absurd hd.1 (hno d hd.mem key)
  | clash x e declaration path leaf key hfirst hdeclaration hfield hnames =>
      refine ⟨x, rfl, ?_, ?_⟩
      · intro y
        refine ⟨(nomatch ·), fun hy => ?_⟩
        exact absurd hfirst.1 (hy.2 e hfirst.mem key)
      · intro d key' hd
        obtain ⟨rfl, rfl⟩ := hfirst.unique hd
        exact ⟨declaration, path, leaf, hdeclaration, hfield, hnames, rfl⟩

theorem extract_error_of_extract_lastWins_orderFile :
    orderFile.isWellNamed = true ∧
      ∃ x d, extract { duplicateKeys := .lastWins } orderFile = .ok x ∧
        IsFirstDrop x.diagnostics d "Name" ∧
        ∃ declaration path leaf, d.declaration = some declaration ∧
          d.field = some (dotted (path ++ [leaf])) ∧
          extract { duplicateKeys := .error } orderFile =
            .error (.duplicateKey "order.go" (dotted (declaration :: path)) "Name") := by
  obtain ⟨x, hx, -, hfirst⟩ := extract_error_of_extract_lastWins {} orderFile_isWellNamed
  have hdiagnostics : (extract { duplicateKeys := .lastWins } orderFile).map
      Extraction.diagnostics = .ok [
        ⟨.warning, dropText "Lines.Name" "Name" "Lines.Raw", "Order", "Lines.Raw", some 6⟩,
        ⟨.notice, "field Hidden excluded by tag", "Order", "Hidden", some 10⟩,
        ⟨.notice, "parsed Order (2 fields)", "Order", none, some 3⟩] := by
    cbv
  rw [hx] at hdiagnostics
  have hdrop : IsFirstDrop x.diagnostics
      ⟨.warning, dropText "Lines.Name" "Name" "Lines.Raw", "Order", "Lines.Raw", some 6⟩
      "Name" := by
    refine ⟨⟨rfl, "Lines.Name", "Lines.Raw", by decide, rfl⟩, [], _, Except.ok.inj hdiagnostics, ?_⟩
    intro e he
    cases he
  obtain ⟨declaration, path, leaf, hdeclaration, hfield, -, herror⟩ := hfirst _ _ hdrop
  exact ⟨orderFile_isWellNamed, x, _, hx, hdrop, declaration, path, leaf, hdeclaration, hfield,
    herror⟩

end StructModel.Extract
