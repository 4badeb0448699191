import StructModel.Proofs.Extract.Runs

/-!
# The two policies in lockstep

A run under `error` does what the run under `lastWins` does up to the first superseding that the
latter notes. There it ends with the clash that the note tells of. A nested struct has its
supersedings noted before those of the struct around it, and so it clashes before it.
-/

namespace StructModel

/-- The same options but for the policy. -/
def Options.under (o : Options) (policy : DuplicatePolicy) : Options :=
  { o with duplicateKeys := policy }

namespace Extract

open StructModel.Go Extractor

/-- The clash that a note on a superseding tells of. -/
def Note.clash? (n : Note) : Option Clash :=
  match n.cause with
  | .superseding _ key => some ⟨n.path, key⟩
  | _ => none

/-- The clash that the first superseding among some notes tells of. -/
def firstClash (notes : List Note) : Option Clash := notes.findSome? Note.clash?

@[simp] theorem firstClash_nil : firstClash [] = none := rfl

@[simp] theorem firstClash_append (ms ns : List Note) :
    firstClash (ms ++ ns) = (firstClash ms).or (firstClash ns) :=
  List.findSome?_append

theorem Note.clash?_below (p : List String) (n : Note) :
    (n.below p).clash? = n.clash?.map (Clash.below p) := by
  unfold Note.clash?
  cases h : n.cause <;> simp [h, Clash.below]

theorem firstClash_below (p : List String) (notes : List Note) :
    firstClash (notes.map (Note.below p)) = (firstClash notes).map (Clash.below p) := by
  induction notes with
  | nil => rfl
  | cons n ns ih =>
      simp only [firstClash, List.map_cons, List.findSome?_cons, Note.clash?_below] at ih ⊢
      cases n.clash? with
      | none => exact ih
      | some c => rfl

/-- The first run never clashes. The second one ends as it does unless the first one notes a
superseding, and otherwise with the clash of the first superseding noted. -/
inductive Lockstep {α : Type} (x y : Extractor α) : Prop
  | agree (a : α) (hx : x.result = .ok a) (hno : firstClash x.notes = none)
      (hy : y.result = .ok a) (hnotes : y.notes = x.notes)
  | clash (a : α) (c : Clash) (hx : x.result = .ok a) (hfirst : firstClash x.notes = some c)
      (hy : y.result = .error c)

section Rules

variable {α β : Type} {x y : Extractor α} {f g : α → Extractor β}

theorem lockstep_pure (a : α) : Lockstep (pure a : Extractor α) (pure a) :=
  Lockstep.agree a rfl rfl rfl rfl

theorem lockstep_note (leaf : String) {cause : Cause} (line : Nat)
    (h : ∀ earlier key, cause ≠ .superseding earlier key) :
    Lockstep (note leaf cause line) (note leaf cause line) := by
  refine Lockstep.agree () rfl ?_ rfl rfl
  cases cause with
  | superseding earlier key => exact absurd rfl (h earlier key)
  | _ => rfl

theorem lockstep_bind [Uniform x] [Uniform y] [∀ a, Uniform (f a)] [∀ a, Uniform (g a)]
    (h : Lockstep x y) (hf : ∀ a, Lockstep (f a) (g a)) : Lockstep (x >>= f) (y >>= g) := by
  cases h with
  | agree a hx hno hy hnotes =>
      cases hf a with
      | agree b hfx hfno hgy hgnotes =>
          refine Lockstep.agree b ?_ ?_ ?_ ?_
          · rw [result_bind, hx]
            exact hfx
          · rw [notes_bind, hx, firstClash_append, hno]
            exact hfno
          · rw [result_bind, hy]
            exact hgy
          · rw [notes_bind, notes_bind, hx, hy, hnotes]
            exact congrArg (x.notes ++ ·) hgnotes
      | clash b c hfx hfirst hgy =>
          refine Lockstep.clash b c ?_ ?_ ?_
          · rw [result_bind, hx]
            exact hfx
          · rw [notes_bind, hx, firstClash_append, hno]
            exact hfirst
          · rw [result_bind, hy]
            exact hgy
  | clash a c hx hfirst hy =>
      obtain ⟨b, hb⟩ : ∃ b, (f a).result = .ok b := by
        cases hf a with
        | agree b hfx => exact ⟨b, hfx⟩
        | clash b c hfx => exact ⟨b, hfx⟩
      refine Lockstep.clash b c ?_ ?_ ?_
      · rw [result_bind, hx]
        exact hb
      · rw [notes_bind, firstClash_append, hfirst]
        rfl
      · rw [result_bind, hy]

theorem lockstep_within (name : String) [Uniform x] [Uniform y] (h : Lockstep x y) :
    Lockstep (within name x) (within name y) := by
  cases h with
  | agree a hx hno hy hnotes =>
      refine Lockstep.agree a ?_ ?_ ?_ ?_
      · rw [result_within, hx, placed_ok]
      · rw [notes_within, firstClash_below, hno]
        rfl
      · rw [result_within, hy, placed_ok]
      · rw [notes_within, notes_within, hnotes]
  | clash a c hx hfirst hy =>
      refine Lockstep.clash a (c.below [name]) ?_ ?_ ?_
      · rw [result_within, hx, placed_ok]
      · rw [notes_within, firstClash_below, hfirst]
        rfl
      · rw [result_within, hy, placed_error]

end Rules

section Slots

variable {x y : Builder} [Uniform x] [Uniform y]

theorem lockstep_layer (form : Element → Element) (h : Lockstep x y) :
    Lockstep (layer form x) (layer form y) :=
  lockstep_bind h fun _ => lockstep_pure _

theorem lockstep_slot (name key text : String) (line : Nat) (h : Lockstep x y) :
    Lockstep (slot name key text line x) (slot name key text line y) := by
  rw [slot_eq, slot_eq]
  refine lockstep_bind (lockstep_within name h) fun r => ?_
  cases r with
  | none => exact lockstep_bind (lockstep_note name line (by simp)) fun _ => lockstep_pure []
  | some e => exact lockstep_pure _

theorem lockstep_taggedSlot (o : Options) (tag : Option String) (name text : String) (line : Nat)
    (h : Lockstep x y) :
    Lockstep (taggedSlot (o.under .lastWins) tag name text line x)
      (taggedSlot (o.under .error) tag name text line y) := by
  have heffect : tagEffect (o.under .error) tag name = tagEffect (o.under .lastWins) tag name := rfl
  unfold taggedSlot
  rw [heffect]
  split
  · exact lockstep_bind (lockstep_note name line (by simp)) fun _ => lockstep_pure []
  · exact lockstep_slot name _ text line h

theorem lockstep_append {y z v w : Extractor (List Slot)} [Uniform y] [Uniform z] [Uniform v]
    [Uniform w] (hy : Lockstep y v) (hz : Lockstep z w) :
    Lockstep (y >>= fun first => z >>= fun rest => pure (first ++ rest))
      (v >>= fun first => w >>= fun rest => pure (first ++ rest)) :=
  lockstep_bind hy fun _ => lockstep_bind hz fun _ => lockstep_pure _

theorem lockstep_slotsOfNames (text : String) (line : Nat) (names : List String)
    (h : Lockstep x y) :
    Lockstep (slotsOfNames text line x names) (slotsOfNames text line y names) := by
  induction names with
  | nil => exact lockstep_pure []
  | cons n ns ih =>
      rw [slotsOfNames, slotsOfNames]
      exact lockstep_append (lockstep_slot n n text line h) ih

end Slots

/-- The first superseding in a struct is where its fields clash under `error`. -/
theorem lockstep_fieldsOfSlots (o : Options) (slots : List Slot) :
    Lockstep (fieldsOfSlots (o.under .lastWins) slots) (fieldsOfSlots (o.under .error) slots) := by
  obtain ⟨fields, ss, hlast⟩ := exists_place_lastWins slots []
  have hresolve : resolve (o.under .lastWins).duplicateKeys slots = .ok (fields, ss) := hlast
  have herror := place_error_eq hlast
  have hx : (fieldsOfSlots (o.under .lastWins) slots).result = .ok fields := by
    rw [result_fieldsOfSlots, hresolve]
  have hnotes : (fieldsOfSlots (o.under .lastWins) slots).notes = ss.map Superseding.note := by
    rw [notes_fieldsOfSlots, hresolve]
  cases ss with
  | nil =>
      have hresolve' : resolve (o.under .error).duplicateKeys slots = .ok (fields, []) := herror
      refine Lockstep.agree fields hx ?_ ?_ ?_
      · rw [hnotes]
        rfl
      · rw [result_fieldsOfSlots, hresolve']
      · rw [notes_fieldsOfSlots, hresolve', hnotes]
  | cons s ss =>
      have hresolve' : resolve (o.under .error).duplicateKeys slots =
          .error s.slot.field.outputKey := herror
      refine Lockstep.clash fields ⟨[], s.slot.field.outputKey⟩ hx ?_ ?_
      · rw [hnotes]
        rfl
      · rw [result_fieldsOfSlots, hresolve']

theorem lockstep_slotsOfDecl (o : Options) (d : FieldDecl)
    (h : Lockstep (build (o.under .lastWins) d.type) (build (o.under .error) d.type)) :
    Lockstep (slotsOfDecl (o.under .lastWins) d) (slotsOfDecl (o.under .error) d) := by
  cases d using FieldDecl.shapes with
  | single name type text tag line =>
      rw [slotsOfDecl, slotsOfDecl]
      exact lockstep_taggedSlot o tag name text line h
  | several name other others type text tag line =>
      unfold slotsOfDecl
      exact lockstep_slotsOfNames text line (name :: other :: others) h
  | embedded indirect n text tag line =>
      rw [slotsOfDecl_embedded, slotsOfDecl_embedded]
      refine lockstep_taggedSlot o tag n text line ?_
      split
      · exact lockstep_layer .optional h
      · exact h
  | unnamed indirect type text tag line hname =>
      rw [slotsOfDecl_unnamed _ text tag line hname, slotsOfDecl_unnamed _ text tag line hname]
      exact lockstep_bind (lockstep_note text line (by simp)) fun _ => lockstep_pure []

theorem lockstep_slotsOfDecls (o : Options) (ds : List FieldDecl)
    (h : ∀ d ∈ ds, Lockstep (build (o.under .lastWins) d.type) (build (o.under .error) d.type)) :
    Lockstep (slotsOfDecls (o.under .lastWins) ds) (slotsOfDecls (o.under .error) ds) := by
  induction ds with
  | nil =>
      rw [slotsOfDecls, slotsOfDecls]
      exact lockstep_pure []
  | cons d ds ih =>
      rw [slotsOfDecls, slotsOfDecls]
      exact lockstep_append (lockstep_slotsOfDecl o d (h d List.mem_cons_self))
        (ih fun e he => h e (List.mem_cons_of_mem d he))

theorem lockstep_build (o : Options) (t : TypeExpr) :
    Lockstep (build (o.under .lastWins) t) (build (o.under .error) t) := by
  induction t with
  | name n =>
      rw [build, build]
      exact lockstep_pure _
  | pointer t ih =>
      rw [build, build]
      exact lockstep_layer .optional ih
  | slice t ih =>
      rw [build, build]
      split
      · exact lockstep_pure _
      · exact lockstep_layer .sequence ih
  | array t ih =>
      rw [build, build]
      split
      · exact lockstep_pure _
      · exact lockstep_layer .sequence ih
  | map k v =>
      rw [build, build]
      exact lockstep_pure _
  | struct ds ih =>
      rw [build, build]
      exact lockstep_bind (lockstep_slotsOfDecls o ds ih) fun slots =>
        lockstep_bind (lockstep_fieldsOfSlots o slots) fun _ => lockstep_pure _
  | interface members =>
      rw [build, build]
      exact lockstep_pure _
  | paren t ih =>
      rw [build_paren, build_paren]
      exact ih
  | other form =>
      rw [build, build]
      exact lockstep_pure _

theorem lockstep_extractFields (o : Options) (ds : List FieldDecl) :
    Lockstep (extractFields (o.under .lastWins) ds) (extractFields (o.under .error) ds) :=
  lockstep_bind (lockstep_slotsOfDecls o ds fun d _ => lockstep_build o d.type) fun slots =>
    lockstep_fieldsOfSlots o slots

end Extract

end StructModel
