import Mathlib
import StructModel.Proofs.Extract.Excluded
import StructModel.Proofs.Extract.Layers
import StructModel.Proofs.Extract.Members
import StructModel.Proofs.Extract.Resolution
import StructModel.Proofs.Go.Exports
import StructModel.Proofs.Go.Structs

/-!
# Structs without tags

Without tags the output keys of a struct are the names of its fields. Those of a struct that may be
declared are distinct, apart from the blank identifier, which may be given to several fields. So
blank fields are the only ones that can clash.
-/

namespace StructModel.Extract

open StructModel.Go StructModel.Grammar Extractor

/-- Whether an entry has a field, unless its tag excludes it. -/
def hasField (e : Entry) : Bool := !e.decl.isUnnamed && decide (IsSupported e.decl.type.core)

/-- The names of the fields of a struct. An embedded field that has no plain name is left out
whatever it is called. -/
def fieldNames (ds : List FieldDecl) : List String :=
  ((entries ds).filter fun e => !e.decl.isUnnamed).map Entry.leaf

/-- The names of those fields that have an element. -/
def emittedNames (ds : List FieldDecl) : List String :=
  ((entries ds).filter hasField).map Entry.leaf

/-- The names of the fields other than the blank identifier are distinct. -/
def HasDistinctNames (ds : List FieldDecl) : Prop := ((fieldNames ds).filter (· != "_")).Nodup

/-- No field has a tag with the key that is looked up. -/
def IsUntagged (o : Options) (ds : List FieldDecl) : Prop := ∀ d ∈ ds, tagValue o d.tag = none

instance (ds : List FieldDecl) : Decidable (HasDistinctNames ds) :=
  inferInstanceAs (Decidable (List.Nodup _))

instance (o : Options) (ds : List FieldDecl) : Decidable (IsUntagged o ds) :=
  inferInstanceAs (Decidable (∀ d ∈ ds, tagValue o d.tag = none))

section Names

variable {ds : List FieldDecl}

theorem emittedNames_sublist (ds : List FieldDecl) : (emittedNames ds).Sublist (fieldNames ds) := by
  unfold emittedNames fieldNames
  have hfilter : (entries ds).filter hasField =
      ((entries ds).filter fun e => !e.decl.isUnnamed).filter fun e =>
        decide (IsSupported e.decl.type.core) := by
    rw [List.filter_filter]
    exact List.filter_congr fun e _ => Bool.and_comm _ _
  rw [hfilter]
  exact List.filter_sublist.map Entry.leaf

theorem eq_blank_of_two_le_count (h : HasDistinctNames ds) {name : String}
    (hcount : 2 ≤ (emittedNames ds).count name) : name = "_" := by
  by_contra hne
  have hle : (emittedNames ds).count name ≤ (fieldNames ds).count name :=
    (emittedNames_sublist ds).count_le name
  have hfilter : ((fieldNames ds).filter (· != "_")).count name = (fieldNames ds).count name :=
    List.count_filter (by simpa using hne)
  have hone := List.nodup_iff_count_le_one.mp h name
  omega

end Names

/-- A struct has no name under which it could be embedded. -/
theorem isUnnamed_of_core {d : FieldDecl} {inner : List FieldDecl}
    (h : d.type.core = .struct inner) :
    d.isUnnamed = false ↔ ∃ name others, d.binding = .named name others := by
  cases d using FieldDecl.shapes with
  | single name type text tag line => exact iff_of_true rfl ⟨name, [], rfl⟩
  | several name other others type text tag line =>
      exact iff_of_true rfl ⟨name, other :: others, rfl⟩
  | embedded indirect n text tag line => cases h
  | unnamed indirect type text tag line hname =>
      have hunnamed : FieldDecl.isUnnamed ⟨.embedded indirect, type, text, tag, line⟩ = true := by
        cases type with
        | name n => exact absurd rfl (hname n)
        | _ => rfl
      refine iff_of_false (by simp [hunnamed]) ?_
      rintro ⟨_, _, hbinding⟩
      cases hbinding

section Entries

variable {o : Options} {e : Entry} (htag : tagValue o e.decl.tag = none)

include htag

/-- Without a tag an entry asks for its name. -/
theorem keyOfEntry_of_untagged :
    keyOfEntry o e = if e.decl.isUnnamed then none else some e.leaf := by
  obtain ⟨⟨⟨name, _ | ⟨other, others⟩⟩ | indirect, type, text, tag, line⟩, leaf⟩ := e
  · simp [keyOfEntry, tagEffect, htag, FieldDecl.isUnnamed]
  · rfl
  · cases type with
    | name n => simp [keyOfEntry, tagEffect, htag, FieldDecl.isUnnamed]
    | _ => rfl

/-- An entry that comes out well has a field under its name, if it has one at all. -/
theorem keys_of_fieldsOfEntry {fields : List Field} (h : fieldsOfEntry o e = .ok fields) :
    fields.map Field.outputKey = ([e].filter hasField).map Entry.leaf := by
  rw [fieldsOfEntry, keyOfEntry_of_untagged htag] at h
  cases hunnamed : e.decl.isUnnamed with
  | true =>
      rw [hunnamed] at h
      cases h
      simp [hasField, hunnamed]
  | false =>
      obtain ⟨form, hform⟩ := exists_result_builderOfEntry o e
      simp only [hunnamed, Bool.false_eq_true, if_false, fieldsUnder, hform] at h
      cases hbuild : (build o e.decl.type).result with
      | error c =>
          rw [hbuild] at h
          cases h
      | ok r =>
          have hsome := isSome_of_build_eq_ok hbuild
          rw [hbuild] at h
          cases h
          cases r <;> simp_all [hasField]

/-- An entry fails when it is named and the struct that is the core of its type fails. -/
theorem fieldsOfEntry_eq_error_iff {c : Clash} :
    fieldsOfEntry o e = .error c ↔ ∃ name others inner c', e.decl.binding = .named name others ∧
      e.decl.type.core = .struct inner ∧ (extractFields o inner).result = .error c' ∧
      c = c'.below [e.leaf] := by
  have hbuild : fieldsOfEntry o e = .error c ↔ e.decl.isUnnamed = false ∧
      ∃ c', (build o e.decl.type).result = .error c' ∧ c = c'.below [e.leaf] := by
    obtain ⟨form, hform⟩ := exists_result_builderOfEntry o e
    rw [fieldsOfEntry, keyOfEntry_of_untagged htag]
    cases e.decl.isUnnamed with
    | true => simp
    | false =>
        simp only [Bool.false_eq_true, if_false, fieldsUnder, hform]
        cases (build o e.decl.type).result with
        | error c' => simp [Except.map, eq_comm]
        | ok r => simp [Except.map]
  rw [hbuild]
  constructor
  · rintro ⟨hunnamed, c', herror, rfl⟩
    obtain ⟨inner, hcore, hinner⟩ := result_build_eq_error_iff.mp herror
    obtain ⟨name, others, hbinding⟩ := (isUnnamed_of_core hcore).mp hunnamed
    exact ⟨name, others, inner, c', hbinding, hcore, hinner, rfl⟩
  · rintro ⟨name, others, inner, c', hbinding, hcore, hinner, rfl⟩
    refine ⟨(isUnnamed_of_core hcore).mpr ⟨name, others, hbinding⟩, c', ?_, rfl⟩
    exact result_build_eq_error_iff.mpr ⟨inner, hcore, hinner⟩

end Entries

section Structs

variable {o : Options}

theorem keys_of_fieldsOfEntries {es : List Entry} (htags : ∀ e ∈ es, tagValue o e.decl.tag = none)
    {fields : List Field} (h : fieldsOfEntries o es = .ok fields) :
    fields.map Field.outputKey = (es.filter hasField).map Entry.leaf := by
  induction es generalizing fields with
  | nil =>
      cases h
      rfl
  | cons e es ih =>
      obtain ⟨htag, htags⟩ := List.forall_mem_cons.mp htags
      rw [fieldsOfEntries_cons] at h
      cases hfirst : fieldsOfEntry o e with
      | error c =>
          rw [hfirst] at h
          cases h
      | ok first =>
          cases hrest : fieldsOfEntries o es with
          | error c =>
              rw [hfirst, hrest] at h
              cases h
          | ok rest =>
              rw [hfirst, hrest] at h
              cases h
              rw [List.map_append, keys_of_fieldsOfEntry htag hfirst, ih htags hrest,
                ← List.map_append, ← List.filter_append, List.singleton_append]

theorem settle_of_nodup {policy : DuplicatePolicy} {fields : List Field}
    (h : (fields.map Field.outputKey).Nodup) : settle policy fields = .ok fields := by
  have hplace : place policy [] (fields.map fun f => (⟨f, 0⟩ : Slot)) = .ok (_, []) :=
    place_of_nodup (by rwa [List.nil_append, map_field_slots])
  rw [settle, hplace, List.nil_append, map_field_slots]

/-- Under `error` a key that several fields have ends the settling. -/
theorem settle_of_not_nodup {fields : List Field} (h : ¬ (fields.map Field.outputKey).Nodup) :
    ∃ key, settle .error fields = .error ⟨[], key⟩ ∧
      2 ≤ (fields.map Field.outputKey).count key := by
  have hkeys : (fields.map fun f => (⟨f, 0⟩ : Slot)).map (fun s => s.field.outputKey) =
      fields.map Field.outputKey := by
    rw [List.map_map]
    rfl
  rw [← hkeys] at h ⊢
  obtain ⟨before, t, after, hslots, hnodup, hkey⟩ := exists_first_repeat h
  refine ⟨t.field.outputKey, ?_, ?_⟩
  · rw [settle, hslots, place_error_of_first_repeat hnodup hkey]
  · rw [hslots, List.map_append, List.map_cons, List.count_append, List.count_cons_self]
    have hpos := List.count_pos_iff.mpr hkey
    omega

section Struct

variable (hpolicy : o.duplicateKeys = .error) {ds : List FieldDecl}
  (hnames : HasDistinctNames ds) (htags : IsUntagged o ds)

include hnames in
/-- Fields with the names of a struct as their keys clash when two of them are blank. -/
theorem settle_eq_error_iff {fields : List Field}
    (hkeys : fields.map Field.outputKey = emittedNames ds) {c : Clash} :
    settle .error fields = .error c ↔ c = ⟨[], "_"⟩ ∧ 2 ≤ (emittedNames ds).count "_" := by
  by_cases hnodup : (fields.map Field.outputKey).Nodup
  · have hone := List.nodup_iff_count_le_one.mp (hkeys ▸ hnodup) "_"
    rw [settle_of_nodup hnodup]
    constructor
    · intro h
      cases h
    · rintro ⟨-, htwo⟩
      exact absurd (Nat.le_trans htwo hone) (by decide)
  · obtain ⟨key, hsettle, hcount⟩ := settle_of_not_nodup hnodup
    rw [hkeys] at hcount
    obtain rfl := eq_blank_of_two_le_count hnames hcount
    rw [hsettle, Except.error.injEq, eq_comm, and_iff_left hcount]

include hpolicy hnames htags

/-- A struct fails when a field of it does, or else when two blank fields have elements. -/
theorem result_extractFields_eq_error_iff {c : Clash} :
    (extractFields o ds).result = .error c ↔ fieldsOfEntries o (entries ds) = .error c ∨
      (∃ fields, fieldsOfEntries o (entries ds) = .ok fields) ∧ c = ⟨[], "_"⟩ ∧
        2 ≤ (emittedNames ds).count "_" := by
  have hentries : ∀ e ∈ entries ds, tagValue o e.decl.tag = none := fun e he =>
    htags e.decl (decl_mem_of_mem_entries he)
  rw [result_extractFields, settledFields, hpolicy]
  cases hfields : fieldsOfEntries o (entries ds) with
  | error c' => simp [Except.bind]
  | ok fields =>
      rw [Except.bind, settle_eq_error_iff hnames (keys_of_fieldsOfEntries hentries hfields)]
      simp

theorem key_of_result_extractFields {c : Clash} (h : (extractFields o ds).result = .error c) :
    c.key = "_" ∨ ∃ e ∈ entries ds, fieldsOfEntry o e = .error c := by
  rcases (result_extractFields_eq_error_iff hpolicy hnames htags).mp h with hfields | ⟨-, rfl, -⟩
  · exact .inr (mem_of_fieldsOfEntries_eq_error hfields)
  · exact .inl rfl

theorem exists_result_extractFields_eq_error_iff :
    (∃ c, (extractFields o ds).result = .error c) ↔
      2 ≤ (emittedNames ds).count "_" ∨ ∃ e ∈ entries ds, ∃ c, fieldsOfEntry o e = .error c := by
  have hiff := @result_extractFields_eq_error_iff o hpolicy ds hnames htags
  constructor
  · rintro ⟨c, hc⟩
    rcases hiff.mp hc with hfields | ⟨-, -, hcount⟩
    · obtain ⟨e, he, hfield⟩ := mem_of_fieldsOfEntries_eq_error hfields
      exact .inr ⟨e, he, c, hfield⟩
    · exact .inl hcount
  · intro h
    cases hfields : fieldsOfEntries o (entries ds) with
    | error c => exact ⟨c, hiff.mpr (.inl hfields)⟩
    | ok fields =>
        rcases h with hcount | ⟨e, he, c, hfield⟩
        · exact ⟨⟨[], "_"⟩, hiff.mpr (.inr ⟨⟨fields, hfields⟩, rfl, hcount⟩)⟩
        · obtain ⟨c', hc'⟩ := exists_fieldsOfEntries_eq_error he hfield
          cases hfields.symm.trans hc'

end Struct

/-- The clashes of a struct are those of blank fields that have elements. -/
structure ClashesOfBlanks (o : Options) (ds : List FieldDecl) : Prop where
  key : ∀ c, (extractFields o ds).result = .error c → c.key = "_"
  exists_iff : (∃ c, (extractFields o ds).result = .error c) ↔
    ∃ deep, LeadsTo ds deep ∧ 2 ≤ (emittedNames deep).count "_"

/-- So it is when all structs that the fields lead to may be declared and have no tags. -/
theorem clashesOfBlanks_of_leadsTo (hpolicy : o.duplicateKeys = .error) (t : TypeExpr) :
    ∀ ds, t.core = .struct ds →
      (∀ deep, LeadsTo ds deep → HasDistinctNames deep ∧ IsUntagged o deep) →
      ClashesOfBlanks o ds := by
  induction t with
  | pointer t ih => exact ih
  | slice t ih => exact ih
  | array t ih => exact ih
  | paren t ih => exact ih
  | struct fields ih =>
      rintro ds ⟨⟩ hall
      obtain ⟨hnames, htags⟩ := hall fields (.self fields)
      have htag : ∀ e ∈ entries fields, tagValue o e.decl.tag = none := fun e he =>
        htags e.decl (decl_mem_of_mem_entries he)
      have hinner : ∀ d ∈ fields, ∀ name others inner, d.binding = .named name others →
          d.type.core = .struct inner → ClashesOfBlanks o inner := by
        intro d hd name others inner hbinding hcore
        exact ih d hd inner hcore fun deep hdeep => hall deep (.field hd hbinding hcore hdeep)
      constructor
      · intro c hc
        rcases key_of_result_extractFields hpolicy hnames htags hc with hblank | ⟨e, he, hfield⟩
        · exact hblank
        · obtain ⟨name, others, inner, c', hbinding, hcore, hclash, rfl⟩ :=
            (fieldsOfEntry_eq_error_iff (htag e he)).mp hfield
          exact (hinner _ (decl_mem_of_mem_entries he) _ _ _ hbinding hcore).key c' hclash
      · rw [exists_result_extractFields_eq_error_iff hpolicy hnames htags]
        constructor
        · rintro (hblank | ⟨e, he, c, hfield⟩)
          · exact ⟨fields, .self fields, hblank⟩
          · obtain ⟨name, others, inner, c', hbinding, hcore, hclash, -⟩ :=
              (fieldsOfEntry_eq_error_iff (htag e he)).mp hfield
            have hd := decl_mem_of_mem_entries he
            obtain ⟨deep, hdeep, hblank⟩ :=
              (hinner _ hd _ _ _ hbinding hcore).exists_iff.mp ⟨c', hclash⟩
            exact ⟨deep, .field hd hbinding hcore hdeep, hblank⟩
        · rintro ⟨deep, hdeep, hblank⟩
          cases hdeep with
          | self => exact .inl hblank
          | @field _ inner _ d name others hd hbinding hcore hdeep =>
              obtain ⟨c, hc⟩ :=
                (hinner d hd name others inner hbinding hcore).exists_iff.mpr ⟨deep, hdeep, hblank⟩
              have he := mem_entries_of_binding hd hbinding
              refine .inr ⟨⟨d, name⟩, he, c.below [name], ?_⟩
              exact (fieldsOfEntry_eq_error_iff (htag _ he)).mpr
                ⟨name, others, inner, c, hbinding, hcore, hc, rfl⟩
  | _ =>
      intro ds hds
      cases hds

end Structs

/-- A file in which every struct, at every depth, may be declared and has no tags fails for blank
fields alone: with their name as the key, and exactly when a declaration that is extracted leads to
a struct with two of them that have elements. So it does not fail when the blank identifier is no
more repeated than other names are. -/
theorem extract_untagged {o : Options} (hpolicy : o.duplicateKeys = .error) {f : SourceFile}
    (hnames : ∀ s ∈ f.specs, ∀ ds ∈ s.type.structs, HasDistinctNames ds)
    (htags : ∀ s ∈ f.specs, ∀ ds ∈ s.type.structs, IsUntagged o ds) :
    (∀ e, extract o f = .error e → ∃ declaration, e = .duplicateKey f.name declaration "_") ∧
      ((∃ e, extract o f = .error e) ↔ ∃ s ∈ members o f, ∃ ds deep, s.type = .struct ds ∧
        LeadsTo ds deep ∧ 2 ≤ (emittedNames deep).count "_") ∧
      ((∀ s ∈ f.specs, ∀ ds ∈ s.type.structs, (fieldNames ds).Nodup) →
        ∃ x, extract o f = .ok x) := by
  have hblanks : ∀ s ∈ members o f, ∀ ds, s.type = .struct ds → ClashesOfBlanks o ds := by
    intro s hs ds htype
    refine clashesOfBlanks_of_leadsTo hpolicy s.type ds (by rw [htype]; rfl) fun deep hdeep => ?_
    have hspec := (List.mem_filter.mp hs).1
    have hmem : deep ∈ s.type.structs := htype ▸ hdeep.mem_structs
    exact ⟨hnames s hspec deep hmem, htags s hspec deep hmem⟩
  have hiff : (∃ e, extract o f = .error e) ↔ ∃ s ∈ members o f, ∃ ds deep, s.type = .struct ds ∧
      LeadsTo ds deep ∧ 2 ≤ (emittedNames deep).count "_" := by
    constructor
    · rintro ⟨e, he⟩
      obtain ⟨s, hs, he⟩ := exists_member_of_extract_eq_error he
      have hmember := (List.mem_filter.mp hs).2
      obtain ⟨ds, htype⟩ := exists_struct_of_isMember hmember
      obtain ⟨c, hc, -⟩ := (extract_member_eq_error_iff hmember htype).mp he
      obtain ⟨deep, hdeep, hcount⟩ := (hblanks s hs ds htype).exists_iff.mp ⟨c, hc⟩
      exact ⟨s, hs, ds, deep, htype, hdeep, hcount⟩
    · rintro ⟨s, hs, ds, deep, htype, hdeep, hcount⟩
      obtain ⟨c, hc⟩ := (hblanks s hs ds htype).exists_iff.mpr ⟨deep, hdeep, hcount⟩
      have hmember := (List.mem_filter.mp hs).2
      have herror : extract o (.ofSpecs f.name [s]) = .error _ :=
        (extract_member_eq_error_iff hmember htype).mpr ⟨c, hc, rfl⟩
      exact exists_extract_eq_error hs herror
  refine ⟨?_, hiff, ?_⟩
  · intro e he
    obtain ⟨s, hs, he⟩ := exists_member_of_extract_eq_error he
    have hmember := (List.mem_filter.mp hs).2
    obtain ⟨ds, htype⟩ := exists_struct_of_isMember hmember
    obtain ⟨c, hc, rfl⟩ := (extract_member_eq_error_iff hmember htype).mp he
    exact ⟨_, by rw [(hblanks s hs ds htype).key c hc]⟩
  · intro hdistinct
    cases hx : extract o f with
    | ok x => exact ⟨x, rfl⟩
    | error e =>
        obtain ⟨s, hs, ds, deep, htype, hdeep, hcount⟩ := hiff.mp ⟨e, hx⟩
        have hmem : deep ∈ s.type.structs := htype ▸ hdeep.mem_structs
        have hone := List.nodup_iff_count_le_one.mp
          (hdistinct s (List.mem_filter.mp hs).1 deep hmem) "_"
        have hle := (emittedNames_sublist deep).count_le "_"
        omega

/-- The fields of a struct, two of them blank. -/
def blankFields : List SyntaxTree := [fieldTree "_" "int", newlineLeaf, fieldTree "_" "string",
  newlineLeaf, fieldTree "A" "bool", newlineLeaf]

def blankTree : SyntaxTree := packageTree [structTree "T" blankFields]

theorem isErrorFree_blankTree : IsErrorFree blankTree := by
  have hline := derives_tokenLeaf .newline "\n"
  have hmore : Derives grammar Word.token [.rule .moreFieldDeclarations] (skeletonAll
      [newlineLeaf, fieldTree "_" "string", newlineLeaf, fieldTree "A" "bool"]) := by
    refine .hidden rfl (show [.rule .moreFieldDeclarations, .token .newline,
      .rule .fieldDeclaration] ∈ _ by decide) ?_
    refine .hidden rfl (show [.token .newline, .rule .fieldDeclaration] ∈ _ by decide) ?_
    exact (hline.append (derives_fieldTree "_" "string")).append
      (hline.append (derives_fieldTree "A" "bool"))
  have hfields : Derives grammar Word.token [.rule .fieldDeclaration,
      .rule .moreFieldDeclarations, .token .newline] (skeletonAll blankFields) :=
    (derives_fieldTree "_" "int").append (hmore.append hline)
  have hstruct := derives_structTree "T" _ (by decide) hfields
  exact isErrorFree_packageTree (List.forall_mem_singleton.mpr hstruct)

/-- What the declaration stands for. -/
def blankSpec : TypeSpec :=
  ⟨"T", 1, false, false, .struct [⟨.named "_" [], .name "int", "int", none, 1⟩,
    ⟨.named "_" [], .name "string", "string", none, 1⟩,
    ⟨.named "A" [], .name "bool", "bool", none, 1⟩],
    "struct \x7b _ int \n _ string \n A bool \n \x7d"⟩

def blankFile : SourceFile := ⟨"blank.go", "", [.package, .types [blankSpec]]⟩

theorem ofTree_blankTree : SourceFile.ofTree "" "blank.go" blankTree = .ok blankFile := by
  rfl

/-- Distinct names other than the blank identifier are not enough. -/
theorem not_forall_untagged_ok :
    ¬ ∀ (t : SyntaxTree) (text name : String) (f : SourceFile), IsErrorFree t →
      SourceFile.ofTree text name t = .ok f → ∀ o : Options, o.duplicateKeys = .error →
      (∀ s ∈ f.specs, ∀ ds ∈ s.type.structs, HasDistinctNames ds) →
      (∀ s ∈ f.specs, ∀ ds ∈ s.type.structs, IsUntagged o ds) →
      ∀ file declaration key, extract o f ≠ .error (.duplicateKey file declaration key) := by
  intro h
  exact h blankTree "" "blank.go" blankFile isErrorFree_blankTree ofTree_blankTree {} rfl
    (by decide) (by decide) "blank.go" "T" "_" (by decide)

/-- A struct type without tags, with blank fields in a struct of their own. -/
def paddedFile : SourceFile where
  name := "padded.go"
  text := ""
  items := [.package, .types [⟨"Order", 3, false, false, .struct [
    ⟨.embedded true, .name "Audit", "Audit", none, 4⟩,
    ⟨.named "_" ["Count"], .name "int", "int", none, 5⟩,
    ⟨.named "_" [], .other .channel, "chan int", none, 6⟩,
    ⟨.named "Lines" [], .slice (.struct [
      ⟨.named "_" [], .name "byte", "byte", none, 8⟩,
      ⟨.named "Count" ["Unit"], .name "int", "int", none, 9⟩]), "", none, 7⟩], ""⟩]]

theorem extract_untagged_blankFile :
    (∃ declaration, extract {} blankFile = .error (.duplicateKey "blank.go" declaration "_")) ∧
      ∃ x, extract {} paddedFile = .ok x := by
  constructor
  · obtain ⟨hkey, hiff, -⟩ :=
      extract_untagged (o := {}) (f := blankFile) rfl (by decide) (by decide)
    have hmember : blankSpec ∈ members {} blankFile := List.mem_singleton_self blankSpec
    obtain ⟨e, he⟩ := hiff.mpr ⟨blankSpec, hmember, _, _, rfl, .self _, by decide⟩
    obtain ⟨declaration, rfl⟩ := hkey e he
    exact ⟨declaration, he⟩
  · obtain ⟨-, hiff, -⟩ :=
      extract_untagged (o := {}) (f := paddedFile) rfl (by decide) (by decide)
    cases hx : extract {} paddedFile with
    | ok x => exact ⟨x, rfl⟩
    | error e =>
        obtain ⟨s, hs, ds, deep, htype, hdeep, hcount⟩ := hiff.mp ⟨e, hx⟩
        have hfew : ∀ s ∈ paddedFile.specs, ∀ ds ∈ s.type.structs,
            (emittedNames ds).count "_" < 2 := by decide
        have hmem : deep ∈ s.type.structs := htype ▸ hdeep.mem_structs
        exact absurd hcount (Nat.not_le.mpr (hfew s (List.mem_filter.mp hs).1 deep hmem))

end StructModel.Extract
