import StructModel.Proofs.Extract.Runs
import StructModel.Proofs.Go.Relocation

/-!
# Extraction of types written elsewhere

The texts and lines of field declarations show in notes alone. A relocated type has the same element
or the same clash, and its notes are the relocated ones.
-/

namespace StructModel.Extract

open StructModel.Go Extractor

section Data

variable (r : Relocation)

def Cause.relocate : Cause → Cause
  | .unsupported text => .unsupported (r.text text)
  | .unnamed text => .unnamed (r.text text)
  | .excluded => .excluded
  | .superseding earlier key => .superseding earlier key

/-- A field without a name goes by the text of its type. -/
def Note.relocate (n : Note) : Note where
  path := n.path
  leaf := match n.cause with
    | .unnamed _ => r.text n.leaf
    | _ => n.leaf
  cause := n.cause.relocate r
  line := r.line n.line

theorem Note.relocate_below (path : List String) (n : Note) :
    (n.below path).relocate r = (n.relocate r).below path := rfl

def Slot.relocate (s : Slot) : Slot := { s with line := r.line s.line }

def Superseding.relocate (s : Superseding) : Superseding := { s with slot := s.slot.relocate r }

theorem Superseding.note_relocate (s : Superseding) : (s.relocate r).note = s.note.relocate r := rfl

/-- Slots are placed by their fields alone. -/
theorem place_relocate (policy : DuplicatePolicy) (slots : List Slot) :
    ∀ kept, place policy kept (slots.map (Slot.relocate r)) =
      (place policy kept slots).map fun p => (p.1, p.2.map (Superseding.relocate r)) := by
  induction slots with
  | nil => exact fun kept => rfl
  | cons s rest ih =>
      intro kept
      have hfield : (s.relocate r).field = s.field := rfl
      rw [List.map_cons, place, place, hfield]
      cases kept.find? (sameKey s.field) with
      | none => exact ih _
      | some earlier =>
          cases policy with
          | error => rfl
          | lastWins =>
              simp only [ih]
              rcases place .lastWins (kept.eraseP (sameKey s.field) ++ [s.field]) rest with
                key | ⟨fields, ss⟩ <;> rfl

end Data

/-- The second extractor gives what the first one gives, seen through a function, and its notes are
relocated. -/
structure Relocates {α β : Type} (r : Relocation) (g : α → β) (x : Extractor α)
    (y : Extractor β) : Prop where
  result : y.result = x.result.map g
  notes : y.notes = x.notes.map (Note.relocate r)

variable {r : Relocation}

section Rules

variable {α β γ δ : Type} {g : α → β} {k : γ → δ} {x : Extractor α} {y : Extractor β}
  {f : α → Extractor γ} {h : β → Extractor δ}

theorem relocates_pure (g : α → β) (a : α) : Relocates r g (pure a) (pure (g a)) := ⟨rfl, rfl⟩

theorem relocates_note (leaf : String) {cause : Cause} (line : Nat)
    (hcause : ∀ text, cause ≠ .unnamed text) :
    Relocates r id (note leaf cause line) (note leaf (cause.relocate r) (r.line line)) := by
  refine ⟨rfl, ?_⟩
  cases cause with
  | unnamed text => exact absurd rfl (hcause text)
  | _ => rfl

theorem relocates_bind [Uniform x] [Uniform y] [∀ a, Uniform (f a)] [∀ b, Uniform (h b)]
    (hxy : Relocates r g x y) (hfh : ∀ a, Relocates r k (f a) (h (g a))) :
    Relocates r k (x >>= f) (y >>= h) := by
  constructor
  · rw [result_bind, result_bind, hxy.result]
    cases x.result with
    | error c => rfl
    | ok a => exact (hfh a).result
  · rw [notes_bind, notes_bind, hxy.result, hxy.notes, List.map_append]
    cases x.result with
    | error c => rfl
    | ok a => exact congrArg (x.notes.map (Note.relocate r) ++ ·) (hfh a).notes

theorem relocates_within (name : String) [Uniform x] [Uniform y] (hxy : Relocates r g x y) :
    Relocates r g (within name x) (within name y) := by
  constructor
  · rw [result_within, result_within, hxy.result]
    cases x.result <;> rfl
  · rw [notes_within, notes_within, hxy.notes, List.map_map, List.map_map]
    exact List.map_congr_left fun n _ => (n.relocate_below r [name]).symm

end Rules

section Slots

variable {x y : Builder} [Uniform x] [Uniform y]

theorem relocates_layer (form : Element → Element) (h : Relocates r id x y) :
    Relocates r id (layer form x) (layer form y) :=
  relocates_bind h fun e => relocates_pure id (e.map form)

theorem relocates_slot (name key text : String) (line : Nat) (h : Relocates r id x y) :
    Relocates r (List.map (Slot.relocate r)) (slot name key text line x)
      (slot name key (r.text text) (r.line line) y) := by
  rw [slot_eq, slot_eq]
  refine relocates_bind (relocates_within name h) fun e => ?_
  cases e with
  | none =>
      exact relocates_bind (relocates_note name line (by simp)) fun _ => relocates_pure _ []
  | some e => exact relocates_pure (List.map (Slot.relocate r)) [⟨⟨name, key, e⟩, line⟩]

theorem relocates_taggedSlot (o : Options) (tag : Option String) (name text : String) (line : Nat)
    (h : Relocates r id x y) :
    Relocates r (List.map (Slot.relocate r)) (taggedSlot o tag name text line x)
      (taggedSlot o tag name (r.text text) (r.line line) y) := by
  unfold taggedSlot
  split
  · exact relocates_bind (relocates_note name line (by simp)) fun _ => relocates_pure _ []
  · exact relocates_slot name _ text line h

theorem relocates_append {v w z u : Extractor (List Slot)} [Uniform v] [Uniform w] [Uniform z]
    [Uniform u] (hv : Relocates r (List.map (Slot.relocate r)) v w)
    (hz : Relocates r (List.map (Slot.relocate r)) z u) :
    Relocates r (List.map (Slot.relocate r))
      (v >>= fun first => z >>= fun rest => pure (first ++ rest))
      (w >>= fun first => u >>= fun rest => pure (first ++ rest)) := by
  refine relocates_bind hv fun first => relocates_bind hz fun rest => ?_
  rw [← List.map_append]
  exact relocates_pure _ (first ++ rest)

theorem relocates_slotsOfNames (text : String) (line : Nat) (names : List String)
    (h : Relocates r id x y) :
    Relocates r (List.map (Slot.relocate r)) (slotsOfNames text line x names)
      (slotsOfNames (r.text text) (r.line line) y names) := by
  induction names with
  | nil => exact relocates_pure _ []
  | cons n ns ih =>
      rw [slotsOfNames, slotsOfNames]
      exact relocates_append (relocates_slot n n text line h) ih

end Slots

theorem relocates_fieldsOfSlots (o : Options) (slots : List Slot) :
    Relocates r id (fieldsOfSlots o slots) (fieldsOfSlots o (slots.map (Slot.relocate r))) := by
  have hplace : resolve o.duplicateKeys (slots.map (Slot.relocate r)) = _ :=
    place_relocate r o.duplicateKeys slots []
  constructor
  · rw [result_fieldsOfSlots, result_fieldsOfSlots, hplace, resolve]
    rcases place o.duplicateKeys [] slots with key | ⟨fields, ss⟩ <;> rfl
  · rw [notes_fieldsOfSlots, notes_fieldsOfSlots, hplace, resolve]
    rcases place o.duplicateKeys [] slots with key | ⟨fields, ss⟩
    · rfl
    · simp only [Except.map, List.map_map]
      exact List.map_congr_left fun s _ => s.note_relocate r

theorem relocates_slotsOfDecl (o : Options) (d : FieldDecl)
    (h : Relocates r id (build o d.type) (build o (d.type.relocate r))) :
    Relocates r (List.map (Slot.relocate r)) (slotsOfDecl o d) (slotsOfDecl o (d.relocate r)) := by
  cases d using FieldDecl.shapes with
  | single name type text tag line =>
      rw [FieldDecl.relocate, slotsOfDecl, slotsOfDecl]
      exact relocates_taggedSlot o tag name text line h
  | several name other others type text tag line =>
      rw [FieldDecl.relocate]
      unfold slotsOfDecl
      exact relocates_slotsOfNames text line (name :: other :: others) h
  | embedded indirect n text tag line =>
      rw [FieldDecl.relocate, TypeExpr.relocate, slotsOfDecl_embedded, slotsOfDecl_embedded]
      refine relocates_taggedSlot o tag n text line ?_
      split
      · exact relocates_layer .optional h
      · exact h
  | unnamed indirect type text tag line hname =>
      rw [FieldDecl.relocate, slotsOfDecl_unnamed o text tag line hname,
        slotsOfDecl_unnamed o _ tag _ (TypeExpr.relocate_ne_name hname)]
      have hnote : Relocates r id (note text (.unnamed text) line)
          (note (r.text text) (.unnamed (r.text text)) (r.line line)) := ⟨rfl, rfl⟩
      exact relocates_bind hnote fun _ => relocates_pure _ []

theorem relocates_slotsOfDecls (o : Options) (ds : List FieldDecl)
    (h : ∀ d ∈ ds, Relocates r id (build o d.type) (build o (d.type.relocate r))) :
    Relocates r (List.map (Slot.relocate r)) (slotsOfDecls o ds)
      (slotsOfDecls o (relocateFields r ds)) := by
  induction ds with
  | nil =>
      rw [relocateFields, slotsOfDecls]
      exact relocates_pure _ []
  | cons d ds ih =>
      rw [relocateFields, slotsOfDecls, slotsOfDecls]
      exact relocates_append (relocates_slotsOfDecl o d (h d List.mem_cons_self))
        (ih fun e he => h e (List.mem_cons_of_mem d he))

section Tests

variable (r) (t : TypeExpr)

@[simp] theorem isByte_relocate : isByte (t.relocate r) = isByte t := by
  unfold isByte
  rw [TypeExpr.unparen_relocate]
  cases t.unparen <;> rfl

@[simp] theorem isString_relocate : isString (t.relocate r) = isString t := by
  cases t <;> rfl

@[simp] theorem isDynamic_relocate : isDynamic (t.relocate r) = isDynamic t := by
  unfold isDynamic
  rw [TypeExpr.unparen_relocate]
  cases t.unparen <;> rfl

end Tests

theorem relocates_build (r : Relocation) (o : Options) (t : TypeExpr) :
    Relocates r id (build o t) (build o (t.relocate r)) := by
  induction t with
  | name n =>
      rw [TypeExpr.relocate, build]
      exact relocates_pure id _
  | pointer t ih =>
      rw [TypeExpr.relocate, build, build]
      exact relocates_layer .optional ih
  | slice t ih =>
      rw [TypeExpr.relocate, build, build, isByte_relocate]
      split
      · exact relocates_pure id _
      · exact relocates_layer .sequence ih
  | array t ih =>
      rw [TypeExpr.relocate, build, build, isByte_relocate]
      split
      · exact relocates_pure id _
      · exact relocates_layer .sequence ih
  | map k v =>
      have helement : mapElement (k.relocate r) (v.relocate r) = mapElement k v := by
        simp [mapElement]
      rw [TypeExpr.relocate, build, build, helement]
      exact relocates_pure id _
  | struct ds ih =>
      rw [TypeExpr.relocate, build, build]
      exact relocates_bind (relocates_slotsOfDecls o ds ih) fun slots =>
        relocates_bind (relocates_fieldsOfSlots o slots) fun fields =>
          relocates_pure id (some (Element.aggregate fields))
  | interface members =>
      rw [TypeExpr.relocate, build]
      exact relocates_pure id _
  | paren t ih =>
      rw [TypeExpr.relocate, build_paren, build_paren]
      exact ih
  | other form =>
      rw [TypeExpr.relocate, build]
      exact relocates_pure id _

theorem relocates_extractFields (r : Relocation) (o : Options) (ds : List FieldDecl) :
    Relocates r id (extractFields o ds) (extractFields o (relocateFields r ds)) :=
  relocates_bind (relocates_slotsOfDecls o ds fun d _ => relocates_build r o d.type)
    (relocates_fieldsOfSlots o)

theorem result_build_relocate (r : Relocation) (o : Options) (t : TypeExpr) :
    (build o (t.relocate r)).result = (build o t).result := by
  rw [(relocates_build r o t).result]
  cases (build o t).result <;> rfl

theorem result_extractFields_relocate (r : Relocation) (o : Options) (ds : List FieldDecl) :
    (extractFields o (relocateFields r ds)).result = (extractFields o ds).result := by
  rw [(relocates_extractFields r o ds).result]
  cases (extractFields o ds).result <;> rfl

end StructModel.Extract
