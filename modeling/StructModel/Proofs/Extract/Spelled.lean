import StructModel.Proofs.Extract.Layers
import StructModel.Proofs.Go.Spelling

/-!
# Extraction of fields spelled out

When the fields of a struct are spelled out, they come out as before or end with the same clash, and
the notes on them are as before up to the texts of types that they quote. A note on an unsupported
type quotes it as it is written then. Structs inside such a type are spelled out in its text, and
the type of an embedded pointer has the pointer in its text only when the field is given a name.
-/

namespace StructModel.Extract

open StructModel.Go Extractor

/-- The second note is the first one, or both are on an unsupported type and the second one quotes
it as it is spelled out. For an embedded pointer that is a pointer to `any`, the only name without
an element. -/
inductive Note.Respelled (w : Spelling) : Note → Note → Prop
  | same (n : Note) : Respelled w n n
  | pointer (path : List String) (text : String) (line : Nat) :
      Respelled w ⟨path, "any", .unsupported text, line⟩
        ⟨path, "any", .unsupported (w.pointer text), line⟩
  | nested (path : List String) (leaf text : String) (line : Nat) :
      Respelled w ⟨path, leaf, .unsupported text, line⟩
        ⟨path, leaf, .unsupported (w.nested text), line⟩

/-- The second extractor ends as the first one does, and its notes are the same one by one up to the
spelling of unsupported types. -/
structure Respells {α : Type} (w : Spelling) (x y : Extractor α) : Prop where
  result : y.result = x.result
  notes : List.Forall₂ (Note.Respelled w) x.notes y.notes

variable {w : Spelling}

section Notes

theorem Note.Respelled.below {n n' : Note} (h : Note.Respelled w n n') (path : List String) :
    Note.Respelled w (n.below path) (n'.below path) := by
  cases h with
  | same n => exact Respelled.same _
  | pointer own text line => exact Respelled.pointer (path ++ own) text line
  | nested own leaf text line => exact Respelled.nested (path ++ own) leaf text line

/-- The text of a field's type is spelled out where structs may stand in the type. -/
theorem Note.respelled_text (type : TypeExpr) (path : List String) (leaf text : String)
    (line : Nat) :
    Note.Respelled w ⟨path, leaf, .unsupported text, line⟩
      ⟨path, leaf, .unsupported (w.text type text), line⟩ := by
  unfold Spelling.text
  split
  · exact Respelled.same _
  · exact Respelled.nested path leaf text line

theorem forall₂_respelled_below {ns ns' : List Note} (h : List.Forall₂ (Note.Respelled w) ns ns')
    (path : List String) :
    List.Forall₂ (Note.Respelled w) (ns.map (Note.below path)) (ns'.map (Note.below path)) := by
  rw [List.forall₂_map_left_iff, List.forall₂_map_right_iff]
  exact h.imp fun _ _ hn => hn.below path

theorem forall₂_respelled_refl (ns : List Note) : List.Forall₂ (Note.Respelled w) ns ns :=
  List.forall₂_same.mpr fun n _ => Note.Respelled.same n

/-- When all types are written as before, the notes are the same. -/
theorem eq_of_forall₂_respelled {ns ns' : List Note}
    (h : List.Forall₂ (Note.Respelled ⟨id, id⟩) ns ns') : ns = ns' := by
  rw [← List.forall₂_eq_eq_eq]
  refine h.imp fun n n' hn => ?_
  cases hn <;> rfl

end Notes

section Rules

variable {α β : Type} {x y : Extractor α} {f g : α → Extractor β}

theorem respells_refl (x : Extractor α) : Respells w x x := ⟨rfl, forall₂_respelled_refl x.notes⟩

theorem respells_bind [Uniform x] [Uniform y] [∀ a, Uniform (f a)] [∀ a, Uniform (g a)]
    (h : Respells w x y) (hfg : ∀ a, Respells w (f a) (g a)) : Respells w (x >>= f) (y >>= g) := by
  constructor
  · rw [result_bind, result_bind, h.result]
    cases x.result with
    | error c => rfl
    | ok a => exact (hfg a).result
  · rw [notes_bind, notes_bind, h.result]
    apply List.rel_append h.notes
    cases x.result with
    | error c => exact List.Forall₂.nil
    | ok a => exact (hfg a).notes

theorem Respells.exists_runs [Uniform x] [Uniform y] (h : Respells w x y) (s : Scope) :
    ∃ r added added', List.Forall₂ (Note.Respelled w) added added' ∧
      x s = (r, ⟨s.path, s.notes ++ added⟩) ∧ y s = (r, ⟨s.path, s.notes ++ added'⟩) := by
  refine ⟨placed s.path x.result, x.notes.map (Note.below s.path),
    y.notes.map (Note.below s.path), forall₂_respelled_below h.notes s.path, run_eq s, ?_⟩
  rw [run_eq (x := y) s, h.result]

theorem Respells.eq [Uniform x] [Uniform y] (h : Respells ⟨id, id⟩ x y) : y = x := by
  funext s
  rw [run_eq (x := x) s, run_eq (x := y) s, h.result,
    eq_of_forall₂_respelled h.notes]

theorem respells_append {y z v u : Extractor (List Slot)} [Uniform y] [Uniform z] [Uniform v]
    [Uniform u] (hy : Respells w y v) (hz : Respells w z u) :
    Respells w (y >>= fun first => z >>= fun rest => pure (first ++ rest))
      (v >>= fun first => u >>= fun rest => pure (first ++ rest)) :=
  respells_bind hy fun _ => respells_bind hz fun _ => respells_refl _

end Rules

section Slots

variable {x y : Builder} [Uniform x] [Uniform y] {text text' : String}

theorem respells_layer (form : Element → Element) (h : Respells w x y) :
    Respells w (layer form x) (layer form y) :=
  respells_bind h fun _ => respells_refl _

/-- The text of the type matters when the type has no element. -/
theorem respells_slot (name key : String) (line : Nat) (h : Respells w x y)
    (htext : x.result = .ok none →
      Note.Respelled w ⟨[], name, .unsupported text, line⟩ ⟨[], name, .unsupported text', line⟩) :
    Respells w (slot name key text line x) (slot name key text' line y) := by
  constructor
  · rw [result_slot, result_slot, h.result]
  · rw [notes_slot, notes_slot, h.result]
    apply List.rel_append (forall₂_respelled_below h.notes [name])
    split
    · rename_i hnone
      exact List.Forall₂.cons (htext hnone) List.Forall₂.nil
    · exact List.Forall₂.nil

theorem respells_taggedSlot (o : Options) (tag : Option String) (name : String) (line : Nat)
    (h : Respells w x y)
    (htext : x.result = .ok none →
      Note.Respelled w ⟨[], name, .unsupported text, line⟩ ⟨[], name, .unsupported text', line⟩) :
    Respells w (taggedSlot o tag name text line x) (taggedSlot o tag name text' line y) := by
  unfold taggedSlot
  split
  · exact respells_refl _
  · exact respells_slot name _ line h htext

theorem respells_slotsOfNames (line : Nat) (names : List String) (h : Respells w x y)
    (htext : ∀ n, Note.Respelled w ⟨[], n, .unsupported text, line⟩
      ⟨[], n, .unsupported text', line⟩) :
    Respells w (slotsOfNames text line x names) (slotsOfNames text' line y names) := by
  induction names with
  | nil => exact respells_refl _
  | cons n ns ih =>
      rw [slotsOfNames, slotsOfNames]
      exact respells_append (respells_slot n n line h fun _ => htext n) ih

end Slots

instance : LawfulMonad Extractor := by
  refine LawfulMonad.mk' Extractor ?_ ?_ ?_
  · intro α x
    funext s
    change (x >>= fun a => pure a) s = x s
    rw [bind_apply]
    rcases x s with ⟨_ | _, _⟩ <;> rfl
  · intro α β a f
    rfl
  · intro α β γ x f g
    funext s
    simp only [bind_apply]
    rcases x s with ⟨_ | _, _⟩ <;> rfl

section Declarations

variable {o : Options}

theorem slotsOfDecls_append (ds es : List FieldDecl) :
    slotsOfDecls o (ds ++ es) =
      (slotsOfDecls o ds >>= fun first =>
        slotsOfDecls o es >>= fun rest => pure (first ++ rest)) := by
  induction ds with
  | nil => simp [slotsOfDecls]
  | cons d ds ih =>
      simp only [List.cons_append, slotsOfDecls, ih, bind_assoc, pure_bind, List.append_assoc]

theorem slotsOfDecls_singleton (d : FieldDecl) : slotsOfDecls o [d] = slotsOfDecl o d := by
  simp [slotsOfDecls]

/-- Several names are as many declarations without tags. -/
theorem slotsOfDecls_names (type : TypeExpr) (text : String) (line : Nat) (names : List String) :
    slotsOfDecls o (names.map fun n => ⟨.named n [], type, text, none, line⟩) =
      slotsOfNames text line (build o type) names := by
  induction names with
  | nil => rw [List.map_nil, slotsOfDecls, slotsOfNames]
  | cons n ns ih =>
      rw [List.map_cons, slotsOfDecls, slotsOfNames, slotsOfDecl, ih]
      rfl

/-- A declaration has the slots of the declarations that it stands for. -/
theorem respells_slotsOfDecl (d : FieldDecl)
    (h : Respells w (build o d.type) (build o (d.type.spelled w))) :
    Respells w (slotsOfDecl o d) (slotsOfDecls o (d.spelled w)) := by
  cases d using FieldDecl.shapes with
  | single name type text tag line =>
      rw [FieldDecl.spelled, slotsOfDecls_singleton, slotsOfDecl, slotsOfDecl]
      exact respells_taggedSlot o tag name line h fun _ =>
        Note.respelled_text type [] name text line
  | several name other others type text tag line =>
      rw [FieldDecl.spelled, slotsOfDecls_names, slotsOfDecl]
      · exact respells_slotsOfNames line _ h fun n => Note.respelled_text type [] n text line
      · simp
  | embedded indirect n text tag line =>
      cases indirect with
      | false =>
          rw [FieldDecl.spelled, slotsOfDecls_singleton, slotsOfDecl_embedded, slotsOfDecl]
          exact respells_refl _
      | true =>
          have hpointer : layer .optional (build o (.name n)) = build o (.pointer (.name n)) := by
            rw [build, build, build]
          rw [FieldDecl.spelled, slotsOfDecls_singleton, slotsOfDecl_embedded, slotsOfDecl,
            if_pos rfl, hpointer]
          refine respells_taggedSlot o tag n line (respells_refl _) fun hnone => ?_
          obtain rfl : n = "any" := by
            by_contra hany
            exact not_isSupported_of_build hnone (IsSupported.name hany)
          exact Note.Respelled.pointer [] text line
  | unnamed indirect type text tag line hname =>
      rw [FieldDecl.spelled_unnamed w hname, slotsOfDecls_singleton]
      exact respells_refl _

theorem respells_slotsOfDecls (ds : List FieldDecl)
    (h : ∀ d ∈ ds, Respells w (build o d.type) (build o (d.type.spelled w))) :
    Respells w (slotsOfDecls o ds) (slotsOfDecls o (spelledFields w ds)) := by
  induction ds with
  | nil =>
      rw [spelledFields]
      exact respells_refl _
  | cons d ds ih =>
      rw [spelledFields, slotsOfDecls_append, slotsOfDecls]
      exact respells_append (respells_slotsOfDecl d (h d List.mem_cons_self))
        (ih fun e he => h e (List.mem_cons_of_mem d he))

end Declarations

theorem isByte_spelled (w : Spelling) (t : TypeExpr) : isByte (t.spelled w) = isByte t := by
  unfold isByte
  rw [TypeExpr.unparen_spelled]
  cases t.unparen <;> simp [TypeExpr.spelled]

theorem isString_spelled (w : Spelling) (t : TypeExpr) : isString (t.spelled w) = isString t := by
  cases t <;> simp [TypeExpr.spelled, isString]

theorem isDynamic_spelled (w : Spelling) (t : TypeExpr) :
    isDynamic (t.spelled w) = isDynamic t := by
  unfold isDynamic
  rw [TypeExpr.unparen_spelled]
  cases t.unparen <;> simp [TypeExpr.spelled]

/-- A map of structs has no element, spelled out or not. -/
theorem mapElement_spelled (w : Spelling) (k v : TypeExpr) :
    mapElement (k.spelled w) (v.spelled w) = mapElement k v := by
  unfold mapElement
  rw [isString_spelled, isString_spelled, isDynamic_spelled]

theorem respells_build (w : Spelling) (o : Options) (t : TypeExpr) :
    Respells w (build o t) (build o (t.spelled w)) := by
  induction t with
  | pointer t ih =>
      rw [TypeExpr.spelled, build, build]
      exact respells_layer .optional ih
  | slice t ih =>
      rw [TypeExpr.spelled, build, build, isByte_spelled]
      split
      · exact respells_refl _
      · exact respells_layer .sequence ih
  | array t ih =>
      rw [TypeExpr.spelled, build, build, isByte_spelled]
      split
      · exact respells_refl _
      · exact respells_layer .sequence ih
  | map k v =>
      rw [TypeExpr.spelled, build, build, mapElement_spelled]
      exact respells_refl _
  | struct ds ih =>
      rw [TypeExpr.spelled, build, build]
      exact respells_bind (respells_slotsOfDecls ds ih) fun slots => respells_refl _
  | paren t ih =>
      rw [TypeExpr.spelled, build_paren, build_paren]
      exact ih
  | _ =>
      rw [TypeExpr.spelled]
      exact respells_refl _

theorem respells_extractFields (w : Spelling) (o : Options) (ds : List FieldDecl) :
    Respells w (extractFields o ds) (extractFields o (spelledFields w ds)) :=
  respells_bind (respells_slotsOfDecls ds fun d _ => respells_build w o d.type) fun _ =>
    respells_refl _

/-- A struct that is spelled out has the same fields in the same order, or the same clash, however
the types of its fields are written then. The notes on it are the same ones, except that a note on
an unsupported type quotes the type as it is spelled out. So when no type is written in another way
there is no difference at all. -/
theorem extractFields_spelled (o : Options) (w : Spelling) (ds : List FieldDecl) (s : Scope) :
    (∃ r added added', List.Forall₂ (Note.Respelled w) added added' ∧
        extractFields o ds s = (r, ⟨s.path, s.notes ++ added⟩) ∧
        extractFields o (spelledFields w ds) s = (r, ⟨s.path, s.notes ++ added'⟩)) ∧
      extractFields o (spelledFields ⟨id, id⟩ ds) s = extractFields o ds s := by
  constructor
  · exact (respells_extractFields w o ds).exists_runs s
  · rw [(respells_extractFields ⟨id, id⟩ o ds).eq]

/-- The type of an embedded pointer is quoted without the pointer. -/
example :
    extractFields {} [⟨.embedded true, .name "any", "any", none, 4⟩] {} =
        (.ok [], ⟨[], [⟨[], "any", .unsupported "any", 4⟩]⟩) ∧
      extractFields {} (spelledFields ⟨("*" ++ ·), id⟩
          [⟨.embedded true, .name "any", "any", none, 4⟩]) {} =
        (.ok [], ⟨[], [⟨[], "any", .unsupported "*any", 4⟩]⟩) := by
  constructor <;> cbv

/-- A field whose type is a map of structs with two names in one declaration. -/
def indexFields : List FieldDecl :=
  [⟨.named "Index" [],
    .map (.name "string") (.struct [⟨.named "A" ["B"], .name "int", "int", none, 4⟩]),
    "map[string]struct\x7b A, B int \x7d", none, 4⟩]

/-- How its type is written with the struct spelled out. -/
def indexSpelling : Spelling where
  pointer text := "*" ++ text
  nested text :=
    if text = "map[string]struct\x7b A, B int \x7d" then
      "map[string]struct\x7b A int; B int \x7d"
    else text

/-- Embedded pointers are not the only fields whose types are quoted in another way. -/
theorem not_forall_respelled_pointer :
    ¬ ∀ (o : Options) (w : Spelling) (ds : List FieldDecl) (s : Scope), ∃ r added added',
      List.Forall₂ (fun n n' => n' = n ∨ ∃ path text line,
        n = ⟨path, "any", .unsupported text, line⟩ ∧
          n' = ⟨path, "any", .unsupported (w.pointer text), line⟩) added added' ∧
      extractFields o ds s = (r, ⟨s.path, s.notes ++ added⟩) ∧
      extractFields o (spelledFields w ds) s = (r, ⟨s.path, s.notes ++ added'⟩) := by
  intro h
  obtain ⟨r, added, added', hnotes, hfields, hspelled⟩ := h {} indexSpelling indexFields {}
  have hwritten : extractFields {} indexFields {} =
      (.ok [], ⟨[], [⟨[], "Index", .unsupported "map[string]struct\x7b A, B int \x7d", 4⟩]⟩) := by
    cbv
  have hrespelled : extractFields {} (spelledFields indexSpelling indexFields) {} =
      (.ok [], ⟨[], [⟨[], "Index",
        .unsupported "map[string]struct\x7b A int; B int \x7d", 4⟩]⟩) := by
    cbv
  rw [hwritten] at hfields
  rw [hrespelled] at hspelled
  obtain rfl := congrArg (fun run => run.2.notes) hfields
  obtain rfl := congrArg (fun run => run.2.notes) hspelled
  obtain hsame | ⟨path, text, line, hpointer, -⟩ := (List.forall₂_cons.mp hnotes).1
  · exact absurd hsame (by decide)
  · have hleaf : "Index" = "any" := congrArg Note.leaf hpointer
    exact absurd hleaf (by decide)

end StructModel.Extract
