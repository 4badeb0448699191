import Mathlib
import StructModel.Proofs.Element.Canonical
import StructModel.Proofs.Extract.Declarations

/-!
# Extracted elements are canonical

Every element that is built from a well named type is canonical, whatever nests in it and whichever
way its fields come by their keys. What is noted on the way has names for all its fields, those that
have no name left aside.
-/

namespace StructModel.Extract

open StructModel.Go Extractor

/-- Whether the fields that a cause is about, its own one among them, have identifiers for names. -/
def Cause.IsWellNamed (leaf : String) : Cause → Prop
  | .excluded => isIdentifier leaf = true
  | .unsupported _ => isIdentifier leaf = true
  | .unnamed _ => True
  | .superseding earlier _ => isIdentifier leaf = true ∧ isIdentifier earlier = true

/-- A note is well named when its path consists of identifiers and its cause is well named. -/
def Note.IsWellNamed (n : Note) : Prop :=
  (∀ name ∈ n.path, isIdentifier name = true) ∧ n.cause.IsWellNamed n.leaf

theorem Note.isWellNamed_top {leaf : String} {cause : Cause} (line : Nat)
    (h : cause.IsWellNamed leaf) : Note.IsWellNamed ⟨[], leaf, cause, line⟩ :=
  ⟨fun _ hname => absurd hname List.not_mem_nil, h⟩

theorem Note.IsWellNamed.below {n : Note} (h : n.IsWellNamed) {name : String}
    (hname : isIdentifier name = true) : (n.below [name]).IsWellNamed := by
  refine ⟨?_, h.2⟩
  intro m hm
  rcases List.mem_cons.mp hm with rfl | hm
  · exact hname
  · exact h.1 m hm

/-- Whatever value an extractor ends with has the property, and all that it notes is well named. -/
structure Extractor.Ensures {α : Type} (x : Extractor α) (P : α → Prop) : Prop where
  value : ∀ a, x.result = .ok a → P a
  notes : ∀ n ∈ x.notes, n.IsWellNamed

section Rules

variable {α β : Type} {x : Extractor α} {f : α → Extractor β} {P : α → Prop} {Q : β → Prop}

theorem ensures_pure {a : α} (h : P a) : (pure a : Extractor α).Ensures P := by
  constructor
  · intro b hb
    cases hb
    exact h
  · intro n hn
    cases hn

theorem ensures_note {leaf : String} {cause : Cause} (line : Nat) (h : cause.IsWellNamed leaf) :
    (note leaf cause line).Ensures fun _ => True := by
  refine ⟨fun _ _ => trivial, ?_⟩
  intro n hn
  cases List.mem_singleton.mp hn
  exact Note.isWellNamed_top line h

theorem ensures_bind [Uniform x] [∀ a, Uniform (f a)] (hx : x.Ensures P)
    (hf : ∀ a, P a → (f a).Ensures Q) : (x >>= f).Ensures Q := by
  constructor
  · intro b hb
    obtain ⟨a, ha, hb⟩ := bind_eq_ok hb
    exact (hf a (hx.value a ha)).value b hb
  · intro n hn
    rcases mem_notes_bind hn with hn | ⟨a, ha, hn⟩
    · exact hx.notes n hn
    · exact (hf a (hx.value a ha)).notes n hn

end Rules

/-- What is asked of the element of a type, if it has one. -/
def IsCanonicalResult (r : Option Element) : Prop := ∀ e, r = some e → e.IsCanonical

/-- What is asked of the slots of a struct. -/
def AreCanonicalSlots (slots : List Slot) : Prop :=
  ∀ s ∈ slots, s.field.IsProper ∧ s.field.element.IsCanonical

theorem isCanonicalResult_none : IsCanonicalResult none := by
  intro e he
  cases he

theorem isCanonicalResult_some {e : Element} (h : e.IsCanonical) : IsCanonicalResult (some e) := by
  intro d hd
  cases hd
  exact h

theorem isCanonicalResult_namedElement {n : String} (h : isIdentifier n = true) :
    IsCanonicalResult (namedElement n) := by
  unfold namedElement
  split
  · exact isCanonicalResult_some (Element.isCanonical_base _)
  · rename_i hbase
    split
    · exact isCanonicalResult_none
    · rename_i hany
      exact isCanonicalResult_some (Element.isCanonical_deferred_iff.mpr ⟨h, hany, hbase⟩)

theorem isCanonicalResult_mapElement (k v : TypeExpr) : IsCanonicalResult (mapElement k v) := by
  unfold mapElement
  split
  · split
    · exact isCanonicalResult_some (Element.isCanonical_base _)
    · split
      · exact isCanonicalResult_some (Element.isCanonical_base _)
      · exact isCanonicalResult_none
  · exact isCanonicalResult_none

theorem isByte_paren (t : TypeExpr) : isByte (.paren t) = isByte t := by
  simp [isByte]

/-- No pointer and no row of items has a base element by way of its items. -/
theorem result_layer_ne_base {form : Element → Element} {x : Builder} [Uniform x] {k : BaseKind}
    (hform : ∀ e, form e ≠ .base k) : (layer form x).result ≠ .ok (some (.base k)) := by
  intro h
  obtain ⟨r, -, hr⟩ := layer_eq_ok h
  cases r with
  | none => cases hr
  | some e => exact hform e (Option.some.inj hr).symm

/-- Only an identifier of a byte has the element of a byte. -/
theorem isByte_of_result_build {o : Options} {t : TypeExpr}
    (h : (build o t).result = .ok (some (.base .uint8))) : isByte t = true := by
  induction t with
  | name n =>
      simp only [build, result_pure, Except.ok.injEq, namedElement] at h
      split at h
      · rename_i hbase
        cases h
        simp [isByte, TypeExpr.unparen, hbase]
      · split at h <;> cases h
  | pointer t =>
      rw [build] at h
      exact absurd h (result_layer_ne_base (by simp))
  | slice t =>
      rw [build] at h
      split at h
      · cases h
      · exact absurd h (result_layer_ne_base (by simp))
  | array t =>
      rw [build] at h
      split at h
      · cases h
      · exact absurd h (result_layer_ne_base (by simp))
  | map k v =>
      simp only [build, result_pure, Except.ok.injEq, mapElement] at h
      split at h
      · split at h
        · cases h
        · split at h <;> cases h
      · cases h
  | struct ds =>
      rw [build_struct] at h
      obtain ⟨fields, -, hfields⟩ := bind_pure_eq_ok h
      cases hfields
  | interface members =>
      rw [build] at h
      cases h
  | paren t ih =>
      rw [build_paren] at h
      rw [isByte_paren]
      exact ih h
  | other form =>
      rw [build] at h
      cases h

theorem ensures_optional {x : Builder} [Uniform x] (h : x.Ensures IsCanonicalResult) :
    (layer .optional x).Ensures IsCanonicalResult := by
  refine ⟨?_, (notes_layer (x := x) .optional).symm ▸ h.notes⟩
  intro r hr
  obtain ⟨r, hx, rfl⟩ := layer_eq_ok hr
  cases r with
  | none => exact isCanonicalResult_none
  | some e =>
      exact isCanonicalResult_some (Element.isCanonical_optional_iff.mpr (h.value _ hx e rfl))

/-- The element of a row of items that are no bytes. -/
theorem ensures_sequence {o : Options} {t : TypeExpr}
    (h : (build o t).Ensures IsCanonicalResult) (hbyte : ¬ isByte t = true) :
    (layer .sequence (build o t)).Ensures IsCanonicalResult := by
  refine ⟨?_, (notes_layer (x := build o t) .sequence).symm ▸ h.notes⟩
  intro r hr
  obtain ⟨r, hx, rfl⟩ := layer_eq_ok hr
  cases r with
  | none => exact isCanonicalResult_none
  | some e =>
      refine isCanonicalResult_some (Element.isCanonical_sequence_iff.mpr ⟨?_, h.value _ hx e rfl⟩)
      rintro rfl
      exact hbyte (isByte_of_result_build hx)

/-- A tag gives no key that is empty or marks an excluded field. -/
theorem key_of_tagEffect {o : Options} {tag : Option String} {name k : String}
    (hname : isIdentifier name = true) (h : tagEffect o tag name = .key k) : k ≠ "" ∧ k ≠ "-" := by
  unfold tagEffect at h
  split at h
  · cases h
  · cases h
    exact ⟨ne_empty_of_isIdentifier hname, ne_hyphen_of_isIdentifier hname⟩
  · cases h
    exact ⟨ne_empty_of_isIdentifier hname, ne_hyphen_of_isIdentifier hname⟩
  · rename_i hhyphen hempty _
    cases h
    exact ⟨hempty, hhyphen⟩

theorem areCanonicalSlots_nil : AreCanonicalSlots [] := by
  intro s hs
  cases hs

section Slots

variable {x : Builder} [Uniform x] {name key text : String} {line : Nat}

theorem ensures_slot (hx : x.Ensures IsCanonicalResult) (hname : isIdentifier name = true)
    (hkey : key ≠ "" ∧ key ≠ "-") : (slot name key text line x).Ensures AreCanonicalSlots := by
  constructor
  · intro slots h
    obtain ⟨r, hr, rfl⟩ := slot_eq_ok h
    cases r with
    | none => exact areCanonicalSlots_nil
    | some e =>
        intro s hs
        cases List.mem_singleton.mp hs
        exact ⟨⟨hname, hkey.1, hkey.2⟩, hx.value _ hr e rfl⟩
  · intro n hn
    rw [notes_slot, List.mem_append] at hn
    rcases hn with hn | hn
    · obtain ⟨m, hm, rfl⟩ := List.mem_map.mp hn
      exact (hx.notes m hm).below hname
    · split at hn
      · cases List.mem_singleton.mp hn
        exact Note.isWellNamed_top line hname
      · cases hn

theorem ensures_taggedSlot (hx : x.Ensures IsCanonicalResult) (hname : isIdentifier name = true)
    (o : Options) (tag : Option String) :
    (taggedSlot o tag name text line x).Ensures AreCanonicalSlots := by
  unfold taggedSlot
  split
  · exact ensures_bind (ensures_note line hname) fun _ _ => ensures_pure areCanonicalSlots_nil
  · rename_i k hk
    exact ensures_slot hx hname (key_of_tagEffect hname hk)

theorem ensures_append {y z : Extractor (List Slot)} [Uniform y] [Uniform z]
    (hy : y.Ensures AreCanonicalSlots) (hz : z.Ensures AreCanonicalSlots) :
    (y >>= fun first => z >>= fun rest => pure (first ++ rest)).Ensures AreCanonicalSlots := by
  refine ensures_bind hy fun first hfirst => ensures_bind hz fun rest hrest => ensures_pure ?_
  intro s hs
  exact (List.mem_append.mp hs).elim (hfirst s) (hrest s)

theorem ensures_slotsOfNames (hx : x.Ensures IsCanonicalResult) {names : List String}
    (hnames : ∀ n ∈ names, isIdentifier n = true) :
    (slotsOfNames text line x names).Ensures AreCanonicalSlots := by
  induction names with
  | nil => exact ensures_pure areCanonicalSlots_nil
  | cons n ns ih =>
      have hn : isIdentifier n = true := hnames n List.mem_cons_self
      rw [slotsOfNames]
      exact ensures_append
        (ensures_slot hx hn ⟨ne_empty_of_isIdentifier hn, ne_hyphen_of_isIdentifier hn⟩)
        (ih fun m hm => hnames m (List.mem_cons_of_mem n hm))

end Slots

/-- What is left of canonical slots makes a canonical aggregate. -/
theorem ensures_fieldsOfSlots {o : Options} {slots : List Slot} (h : AreCanonicalSlots slots) :
    (fieldsOfSlots o slots).Ensures fun fields => (Element.aggregate fields).IsCanonical := by
  constructor
  · intro fields hfields
    obtain ⟨ss, hplacing, -⟩ := fieldsOfSlots_eq_ok hfields
    refine Element.isCanonical_aggregate_iff.mpr ⟨hplacing.nodup (by simp), ?_⟩
    intro f hf
    rcases hplacing.mem f hf with hf | ⟨s, hs, rfl⟩
    · cases hf
    · exact h s hs
  · intro n hn
    obtain ⟨fields, ss, s, hplacing, hs, rfl⟩ := mem_notes_fieldsOfSlots hn
    obtain ⟨hslot, f, hf, hearlier⟩ := hplacing.mem_supersedings s hs
    refine Note.isWellNamed_top _ ⟨(h s.slot hslot).1.1, ?_⟩
    rcases hf with hf | ⟨t, ht, rfl⟩
    · cases hf
    · exact hearlier ▸ (h t ht).1.1

theorem ensures_slotsOfDecl {o : Options} {d : FieldDecl} (hd : d.isWellNamed = true)
    (htype : (build o d.type).Ensures IsCanonicalResult) :
    (slotsOfDecl o d).Ensures AreCanonicalSlots := by
  cases d using FieldDecl.shapes with
  | single name type text tag line =>
      simp only [FieldDecl.isWellNamed, Binding.isWellNamed, Bool.and_eq_true, List.all_cons,
        List.all_nil, Bool.and_true] at hd
      rw [slotsOfDecl]
      exact ensures_taggedSlot htype hd.1 o tag
  | several name other others type text tag line =>
      simp only [FieldDecl.isWellNamed, Binding.isWellNamed, Bool.and_eq_true,
        List.all_eq_true] at hd
      unfold slotsOfDecl
      exact ensures_slotsOfNames htype hd.1
  | embedded indirect n text tag line =>
      rw [slotsOfDecl_embedded]
      refine ensures_taggedSlot ?_ hd o tag
      split
      · exact ensures_optional htype
      · exact htype
  | unnamed indirect type text tag line hname =>
      rw [slotsOfDecl_unnamed o text tag line hname]
      exact ensures_bind (ensures_note line trivial) fun _ _ => ensures_pure areCanonicalSlots_nil

theorem ensures_slotsOfDecls {o : Options} {ds : List FieldDecl}
    (hds : ∀ d ∈ ds, d.isWellNamed = true)
    (htypes : ∀ d ∈ ds, (build o d.type).Ensures IsCanonicalResult) :
    (slotsOfDecls o ds).Ensures AreCanonicalSlots := by
  induction ds with
  | nil =>
      rw [slotsOfDecls]
      exact ensures_pure areCanonicalSlots_nil
  | cons d ds ih =>
      rw [slotsOfDecls]
      exact ensures_append
        (ensures_slotsOfDecl (hds d List.mem_cons_self) (htypes d List.mem_cons_self))
        (ih (fun e he => hds e (List.mem_cons_of_mem d he))
          fun e he => htypes e (List.mem_cons_of_mem d he))

/-- The element of a well named type is canonical. -/
theorem ensures_build {o : Options} {t : TypeExpr} (ht : t.isWellNamed = true) :
    (build o t).Ensures IsCanonicalResult := by
  induction t with
  | name n =>
      rw [build]
      exact ensures_pure (isCanonicalResult_namedElement ht)
  | pointer t ih =>
      rw [build]
      exact ensures_optional (ih ht)
  | slice t ih =>
      rw [build]
      split
      · exact ensures_pure (isCanonicalResult_some (Element.isCanonical_base _))
      · exact ensures_sequence (ih ht) ‹_›
  | array t ih =>
      rw [build]
      split
      · exact ensures_pure (isCanonicalResult_some (Element.isCanonical_base _))
      · exact ensures_sequence (ih ht) ‹_›
  | map k v =>
      rw [build]
      exact ensures_pure (isCanonicalResult_mapElement k v)
  | struct ds ih =>
      have hds := areWellNamed_iff.mp ht
      rw [build]
      exact ensures_bind
        (ensures_slotsOfDecls hds fun d hd => ih d hd (FieldDecl.isWellNamed_type (hds d hd)))
        fun slots hslots => ensures_bind (ensures_fieldsOfSlots hslots) fun fields hfields =>
          ensures_pure (isCanonicalResult_some hfields)
  | interface members =>
      rw [build]
      exact ensures_pure isCanonicalResult_none
  | paren t ih =>
      rw [build_paren]
      exact ih ht
  | other form =>
      rw [build]
      exact ensures_pure isCanonicalResult_none

/-- The fields of a well named struct make a canonical aggregate. -/
theorem ensures_extractFields {o : Options} {ds : List FieldDecl} (h : areWellNamed ds = true) :
    (extractFields o ds).Ensures fun fields => (Element.aggregate fields).IsCanonical := by
  have hds := areWellNamed_iff.mp h
  exact ensures_bind
    (ensures_slotsOfDecls hds fun d hd => ensures_build (FieldDecl.isWellNamed_type (hds d hd)))
    fun slots hslots => ensures_fieldsOfSlots hslots

/-- The root of every extracted model is an optional aggregate with fields, and it is canonical with
everything within it, under any policy for clashes. -/
theorem isCanonical_of_mem_models {o : Options} {f : SourceFile} {x : Extraction}
    (hf : f.isWellNamed = true) (hx : extract o f = .ok x) :
    ∀ m ∈ x.models, ∃ fields, fields ≠ [] ∧ m.root = .optional (.aggregate fields) ∧
      m.root.IsCanonical := by
  intro m hm
  obtain ⟨y, hy, rfl⟩ := extract_eq_ok hx
  obtain ⟨d, hd, fields, hfields, hne, rfl⟩ := exists_decl_of_mem_models hy hm
  have hcanonical : (Element.aggregate fields).IsCanonical :=
    (ensures_extractFields (SourceFile.isWellNamed_decl hf hd).2).value fields hfields
  exact ⟨fields, hne, rfl, Element.isCanonical_optional_iff.mpr hcanonical⟩

theorem isCanonical_of_mem_models_orderFile :
    orderFile.isWellNamed = true ∧
      ∃ x, extract { duplicateKeys := .lastWins } orderFile = .ok x ∧
        x.models.map TypeModel.name = ["Order"] ∧
        ∀ m ∈ x.models, ∃ fields, fields ≠ [] ∧ m.root = .optional (.aggregate fields) ∧
          m.root.IsCanonical := by
  have hnames : (extract { duplicateKeys := .lastWins } orderFile).map
      (fun x => x.models.map TypeModel.name) = .ok ["Order"] := by
    cbv
  refine ⟨orderFile_isWellNamed, ?_⟩
  cases hx : extract { duplicateKeys := .lastWins } orderFile with
  | error e =>
      rw [hx] at hnames
      cases hnames
  | ok x =>
      rw [hx] at hnames
      exact ⟨x, rfl, Except.ok.inj hnames, isCanonical_of_mem_models orderFile_isWellNamed hx⟩

end StructModel.Extract
