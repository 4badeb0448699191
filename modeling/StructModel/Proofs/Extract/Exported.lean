import Mathlib
import StructModel.Proofs.Extract.Selection

/-!
# Exported declarations only

Whether only exported declarations are asked for has no part in how a declaration is extracted. So a
file with that option comes to what it comes to without it, restricted to the exported names.
-/

namespace StructModel.Extract

open StructModel.Go Extractor

section Fields

variable {o o' : Options} (htag : o'.tagKey = o.tagKey)
  (hpolicy : o'.duplicateKeys = o.duplicateKeys)

section Tags

include htag

theorem tagEffect_congr (tag : Option String) (name : String) :
    tagEffect o' tag name = tagEffect o tag name := by
  rw [tagEffect, tagEffect, tagValue, tagValue, htag]

theorem slotsOfDecl_congr (d : FieldDecl) (h : build o' d.type = build o d.type) :
    slotsOfDecl o' d = slotsOfDecl o d := by
  cases d using FieldDecl.shapes with
  | single name type text tag line =>
      rw [slotsOfDecl, slotsOfDecl, h, taggedSlot, taggedSlot, tagEffect_congr htag]
  | several name other others type text tag line =>
      unfold slotsOfDecl
      rw [h]
  | embedded indirect n text tag line =>
      rw [slotsOfDecl_embedded, slotsOfDecl_embedded, h, taggedSlot, taggedSlot,
        tagEffect_congr htag]
  | unnamed indirect type text tag line hname =>
      rw [slotsOfDecl_unnamed o' text tag line hname, slotsOfDecl_unnamed o text tag line hname]

theorem slotsOfDecls_congr (ds : List FieldDecl)
    (h : ∀ d ∈ ds, build o' d.type = build o d.type) : slotsOfDecls o' ds = slotsOfDecls o ds := by
  induction ds with
  | nil => rw [slotsOfDecls, slotsOfDecls]
  | cons d ds ih =>
      rw [slotsOfDecls, slotsOfDecls, slotsOfDecl_congr htag d (h d List.mem_cons_self),
        ih fun e he => h e (List.mem_cons_of_mem d he)]

end Tags

include htag hpolicy

theorem extractFields_congr (ds : List FieldDecl)
    (h : ∀ d ∈ ds, build o' d.type = build o d.type) : extractFields o' ds = extractFields o ds := by
  have hsettle : fieldsOfSlots o' = fieldsOfSlots o := by
    funext slots
    rw [fieldsOfSlots, fieldsOfSlots, hpolicy]
  rw [extractFields, extractFields, hsettle, slotsOfDecls_congr htag ds h]

/-- Only the tag key and the policy for clashes have a part in the element of a type. -/
theorem build_congr (t : TypeExpr) : build o' t = build o t := by
  induction t with
  | name n => rw [build, build]
  | pointer t ih => rw [build, build, ih]
  | slice t ih => rw [build, build, ih]
  | array t ih => rw [build, build, ih]
  | map k v => rw [build, build]
  | struct ds ih => rw [build_struct, build_struct, extractFields_congr htag hpolicy ds ih]
  | interface members => rw [build, build]
  | paren t ih =>
      rw [build_paren, build_paren]
      exact ih
  | other form => rw [build, build]

theorem extractDecls_congr (file : String) (ds : List AggregateDecl) :
    extractDecls o' file ds = extractDecls o file ds := by
  induction ds with
  | nil => rfl
  | cons d ds ih =>
      have hfields := extractFields_congr htag hpolicy d.fields
        fun e _ => build_congr htag hpolicy e.type
      rw [extractDecls_cons, extractDecls_cons, ih, extractDecl, extractDecl, hfields]

end Fields

variable (o : Options)

/-- With the option a file comes to what its exported specifications come to without it. -/
theorem extract_exportedOnly_eq (f : SourceFile) :
    extract { o with exportedOnly := true } f =
      extract { o with exportedOnly := false }
        (.ofSpecs f.name (f.specs.filter fun s => Text.isExported s.name)) := by
  have hselected : selectedSpecs { o with exportedOnly := true } f.items =
      selectedSpecs { o with exportedOnly := false }
        (SourceFile.ofSpecs f.name (f.specs.filter fun s => Text.isExported s.name)).items := by
    rw [selectedSpecs_eq, selectedSpecs_eq, SourceFile.specs_ofSpecs, List.filter_filter]
    refine List.filter_congr fun s _ => ?_
    simp [isSelected]
  rw [extract_eq, extract_eq, aggregateDecls, aggregateDecls, genericWarnings, genericWarnings,
    hselected, SourceFile.name_ofSpecs]
  have hdecls := @extractDecls_congr { o with exportedOnly := false }
    { o with exportedOnly := true } rfl rfl
  rw [hdecls]

/-- Every diagnostic of an extraction is on a declaration. -/
theorem isSome_declaration_of_extract {f : SourceFile} {x : Extraction} (h : extract o f = .ok x) :
    ∀ d ∈ x.diagnostics, d.declaration.isSome = true := by
  obtain ⟨y, hy, rfl⟩ := extract_eq_ok h
  intro d hd
  rcases List.mem_append.mp hd with hd | hd
  · obtain ⟨s, -, rfl⟩ := List.mem_map.mp hd
    rfl
  · obtain ⟨e, -, he⟩ := exists_decl_of_mem_diagnostics hy hd
    rw [he]
    rfl

/-- What an extraction gives with exported declarations only is what it gives without the option,
restricted to the models and diagnostics of exported names, each of which is on a declaration. So
there is an error without it whenever there is one with it. -/
theorem extract_exportedOnly (f : SourceFile) :
    (∀ x, extract { o with exportedOnly := false } f = .ok x →
      extract { o with exportedOnly := true } f = .ok
          ⟨x.models.filter fun m => Text.isExported m.name,
            x.diagnostics.filter fun d => d.declaration.any Text.isExported⟩ ∧
        ∀ d ∈ x.diagnostics, d.declaration.isSome = true) ∧
      ∀ e, extract { o with exportedOnly := true } f = .error e →
        ∃ e', extract { o with exportedOnly := false } f = .error e' := by
  have hok : ∀ x, extract { o with exportedOnly := false } f = .ok x →
      extract { o with exportedOnly := true } f = .ok (x.restrict Text.isExported) := by
    intro x hx
    rw [extract_exportedOnly_eq]
    exact extract_restrict hx f.name
  constructor
  · exact fun x hx => ⟨hok x hx, isSome_declaration_of_extract _ hx⟩
  · intro e he
    cases hx : extract { o with exportedOnly := false } f with
    | error e' => exact ⟨e', rfl⟩
    | ok x =>
        rw [hok x hx] at he
        cases he

theorem extract_exportedOnly_mixedFile :
    ∃ x y, extract {} mixedFile = .ok x ∧ extract { exportedOnly := true } mixedFile = .ok y ∧
      x.models.map TypeModel.name = ["Point", "cell"] ∧
      y.models.map TypeModel.name = ["Point"] ∧
      y.diagnostics = x.diagnostics.filter fun d => d.declaration.any Text.isExported := by
  have hnames : (extract {} mixedFile).map (fun x => x.models.map TypeModel.name) =
      .ok ["Point", "cell"] := by
    cbv
  cases hx : extract {} mixedFile with
  | error e =>
      rw [hx] at hnames
      cases hnames
  | ok x =>
      rw [hx] at hnames
      have hx' := (extract_exportedOnly {} mixedFile).1 x hx
      have hmodels : x.models.map TypeModel.name = ["Point", "cell"] := Except.ok.inj hnames
      refine ⟨x, _, rfl, hx'.1, hmodels, ?_, rfl⟩
      change (x.models.filter (Text.isExported ∘ TypeModel.name)).map TypeModel.name = ["Point"]
      rw [← List.filter_map, hmodels]
      decide

end StructModel.Extract
