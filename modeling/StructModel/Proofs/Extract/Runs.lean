import StructModel.Proofs.Extract.Placing
import StructModel.Proofs.Extract.Uniform
import StructModel.Proofs.Go.Induction

/-!
# Runs of field extraction

Every part of field extraction is uniform. For each part its result and its notes at the top of a
declaration are given in terms of those of the parts it is made of, so that later arguments need
not run an extractor.
-/

namespace StructModel.Extract

open StructModel.Go Extractor

/-- The note on a field that has taken the key of an earlier one. -/
def Superseding.note (s : Superseding) : Note :=
  ⟨[], s.slot.field.sourceName, .superseding s.earlier s.slot.field.outputKey, s.slot.line⟩

section Append

variable {y z : Extractor (List Slot)} [Uniform y] [Uniform z]

/-- Slots come one after the other from two parts when both parts end well. -/
theorem append_eq_ok {slots : List Slot}
    (h : (y >>= fun first => z >>= fun rest => pure (first ++ rest)).result = .ok slots) :
    ∃ first rest, y.result = .ok first ∧ z.result = .ok rest ∧ slots = first ++ rest ∧
      (y >>= fun first => z >>= fun rest => pure (first ++ rest)).notes = y.notes ++ z.notes := by
  obtain ⟨first, hfirst, h⟩ := bind_eq_ok h
  obtain ⟨rest, hrest, rfl⟩ := bind_pure_eq_ok h
  refine ⟨first, rest, hfirst, hrest, rfl, ?_⟩
  rw [notes_bind_of_ok hfirst, notes_bind_pure]

/-- What is noted on the way comes from either part, however they end. -/
theorem mem_notes_append {n : Note}
    (h : n ∈ (y >>= fun first => z >>= fun rest => pure (first ++ rest)).notes) :
    n ∈ y.notes ∨ n ∈ z.notes := by
  rcases mem_notes_bind h with h | ⟨first, -, h⟩
  · exact Or.inl h
  · rw [notes_bind_pure] at h
    exact Or.inr h

end Append

section Parts

variable {x : Builder}

instance (form : Element → Element) [Uniform x] : Uniform (layer form x) := by
  unfold layer
  infer_instance

theorem result_layer (form : Element → Element) [Uniform x] :
    (layer form x).result = x.result.map (Option.map form) :=
  result_bind_pure _

theorem notes_layer (form : Element → Element) [Uniform x] : (layer form x).notes = x.notes :=
  notes_bind_pure _

theorem layer_eq_ok {form : Element → Element} [Uniform x] {r : Option Element}
    (h : (layer form x).result = .ok r) : ∃ r', x.result = .ok r' ∧ r = r'.map form :=
  bind_pure_eq_ok h

/-- What a field does with the element of its type. -/
def settleSlot (name key text : String) (line : Nat) :
    Option Element → Extractor (List Slot)
  | some e => pure [⟨⟨name, key, e⟩, line⟩]
  | none => note name (.unsupported text) line >>= fun _ => pure []

instance (name key text : String) (line : Nat) (r : Option Element) :
    Uniform (settleSlot name key text line r) := by
  cases r <;> unfold settleSlot <;> infer_instance

theorem slot_eq (name key text : String) (line : Nat) :
    slot name key text line x = within name x >>= settleSlot name key text line := by
  refine congrArg (within name x >>= ·) (funext fun r => ?_)
  cases r <;> rfl

instance (name key text : String) (line : Nat) [Uniform x] :
    Uniform (slot name key text line x) := by
  rw [slot_eq]
  infer_instance

theorem result_slot (name key text : String) (line : Nat) [Uniform x] :
    (slot name key text line x).result =
      (placed [name] x.result).map fun r => r.toList.map fun e => ⟨⟨name, key, e⟩, line⟩ := by
  rw [slot_eq, result_bind, result_within]
  rcases x.result with c | _ | e <;> rfl

/-- A field with an element has one slot, an unsupported one none. -/
theorem slot_eq_ok {name key text : String} {line : Nat} [Uniform x] {slots : List Slot}
    (h : (slot name key text line x).result = .ok slots) :
    ∃ r, x.result = .ok r ∧ slots = r.toList.map fun e => ⟨⟨name, key, e⟩, line⟩ := by
  rw [result_slot] at h
  rcases hr : x.result with c | r <;> rw [hr] at h <;> cases h
  exact ⟨r, rfl, rfl⟩

/-- An unsupported field is noted after whatever its type has noted. -/
theorem notes_slot (name key text : String) (line : Nat) [Uniform x] :
    (slot name key text line x).notes =
      x.notes.map (Note.below [name]) ++
        match x.result with
        | .ok none => [⟨[], name, .unsupported text, line⟩]
        | _ => [] := by
  rw [slot_eq, notes_bind, notes_within, result_within]
  rcases x.result with c | _ | e <;> rfl

instance (o : Options) (tag : Option String) (name text : String) (line : Nat) [Uniform x] :
    Uniform (taggedSlot o tag name text line x) := by
  unfold taggedSlot
  split <;> infer_instance

instance (text : String) (line : Nat) (names : List String) [Uniform x] :
    Uniform (slotsOfNames text line x names) := by
  induction names with
  | nil =>
      unfold slotsOfNames
      infer_instance
  | cons n ns ih =>
      unfold slotsOfNames
      infer_instance

end Parts

instance (ss : List Superseding) : Uniform (noteSupersedings ss) := by
  induction ss with
  | nil =>
      unfold noteSupersedings
      infer_instance
  | cons s ss ih =>
      unfold noteSupersedings
      infer_instance

theorem result_noteSupersedings (ss : List Superseding) :
    (noteSupersedings ss).result = .ok () := by
  induction ss with
  | nil => rfl
  | cons s ss ih =>
      rw [noteSupersedings, result_bind]
      exact ih

theorem notes_noteSupersedings (ss : List Superseding) :
    (noteSupersedings ss).notes = ss.map Superseding.note := by
  induction ss with
  | nil => rfl
  | cons s ss ih =>
      rw [noteSupersedings, notes_bind]
      exact congrArg (s.note :: ·) ih

instance (o : Options) (slots : List Slot) : Uniform (fieldsOfSlots o slots) := by
  unfold fieldsOfSlots
  split <;> infer_instance

theorem result_fieldsOfSlots (o : Options) (slots : List Slot) :
    (fieldsOfSlots o slots).result =
      match resolve o.duplicateKeys slots with
      | .error key => .error ⟨[], key⟩
      | .ok (fields, _) => .ok fields := by
  unfold fieldsOfSlots
  rcases resolve o.duplicateKeys slots with key | ⟨fields, ss⟩
  · rfl
  · simp only [result_bind, result_noteSupersedings, result_pure]

theorem notes_fieldsOfSlots (o : Options) (slots : List Slot) :
    (fieldsOfSlots o slots).notes =
      match resolve o.duplicateKeys slots with
      | .error _ => []
      | .ok (_, ss) => ss.map Superseding.note := by
  unfold fieldsOfSlots
  rcases resolve o.duplicateKeys slots with key | ⟨fields, ss⟩
  · rfl
  · simp only [notes_bind, result_noteSupersedings, notes_noteSupersedings, notes_pure,
      List.append_nil]

/-- The fields of a struct are what placing its slots leads to, and the supersedings are noted. -/
theorem fieldsOfSlots_eq_ok {o : Options} {slots : List Slot} {fields : List Field}
    (h : (fieldsOfSlots o slots).result = .ok fields) :
    ∃ ss, Placing o.duplicateKeys [] slots fields ss ∧
      (fieldsOfSlots o slots).notes = ss.map Superseding.note := by
  rw [result_fieldsOfSlots] at h
  rw [notes_fieldsOfSlots]
  rcases hplace : resolve o.duplicateKeys slots with key | ⟨fields', ss⟩ <;> rw [hplace] at h <;>
    cases h
  exact ⟨ss, placing_of_place hplace, rfl⟩

theorem mem_notes_fieldsOfSlots {o : Options} {slots : List Slot} {n : Note}
    (h : n ∈ (fieldsOfSlots o slots).notes) :
    ∃ fields ss s, Placing o.duplicateKeys [] slots fields ss ∧ s ∈ ss ∧ n = s.note := by
  rw [notes_fieldsOfSlots] at h
  rcases hplace : resolve o.duplicateKeys slots with key | ⟨fields, ss⟩ <;> rw [hplace] at h
  · cases h
  · obtain ⟨s, hs, rfl⟩ := List.mem_map.mp h
    exact ⟨fields, ss, s, placing_of_place hplace, hs, rfl⟩

theorem slotsOfDecl_embedded (o : Options) (indirect : Bool) (n text : String)
    (tag : Option String) (line : Nat) :
    slotsOfDecl o ⟨.embedded indirect, .name n, text, tag, line⟩ =
      taggedSlot o tag n text line
        (if indirect then layer .optional (build o (.name n)) else build o (.name n)) := by
  rw [slotsOfDecl, build]

theorem slotsOfDecl_unnamed (o : Options) {indirect : Bool} {type : TypeExpr} (text : String)
    (tag : Option String) (line : Nat) (h : ∀ n, type ≠ .name n) :
    slotsOfDecl o ⟨.embedded indirect, type, text, tag, line⟩ =
      (note text (.unnamed text) line >>= fun _ => pure []) := by
  cases type with
  | name n => exact absurd rfl (h n)
  | _ => rfl

theorem uniform_slotsOfDecl (o : Options) (d : FieldDecl) (h : Uniform (build o d.type)) :
    Uniform (slotsOfDecl o d) := by
  cases d using FieldDecl.shapes with
  | single name type text tag line =>
      rw [slotsOfDecl]
      infer_instance
  | several name other others type text tag line =>
      unfold slotsOfDecl
      infer_instance
  | embedded indirect n text tag line =>
      rw [slotsOfDecl_embedded]
      infer_instance
  | unnamed indirect type text tag line hname =>
      rw [slotsOfDecl_unnamed o text tag line hname]
      infer_instance

theorem uniform_slotsOfDecls (o : Options) (ds : List FieldDecl)
    (h : ∀ d ∈ ds, Uniform (build o d.type)) : Uniform (slotsOfDecls o ds) := by
  induction ds with
  | nil =>
      rw [slotsOfDecls]
      infer_instance
  | cons d ds ih =>
      have := uniform_slotsOfDecl o d (h d List.mem_cons_self)
      have := ih fun e he => h e (List.mem_cons_of_mem d he)
      rw [slotsOfDecls]
      infer_instance

instance uniform_build (o : Options) (t : TypeExpr) : Uniform (build o t) := by
  induction t with
  | name n =>
      rw [build]
      infer_instance
  | pointer t ih =>
      rw [build]
      infer_instance
  | slice t ih =>
      rw [build]
      infer_instance
  | array t ih =>
      rw [build]
      infer_instance
  | map k v =>
      rw [build]
      infer_instance
  | struct ds ih =>
      have := uniform_slotsOfDecls o ds ih
      rw [build]
      infer_instance
  | interface members =>
      rw [build]
      infer_instance
  | paren t ih =>
      rw [build]
      infer_instance
  | other form =>
      rw [build]
      infer_instance

instance (o : Options) (d : FieldDecl) : Uniform (slotsOfDecl o d) :=
  uniform_slotsOfDecl o d inferInstance

instance (o : Options) (ds : List FieldDecl) : Uniform (slotsOfDecls o ds) :=
  uniform_slotsOfDecls o ds fun _ _ => inferInstance

instance (o : Options) (ds : List FieldDecl) : Uniform (extractFields o ds) := by
  unfold extractFields
  infer_instance

/-- A struct is extracted when its slots are, and then these are placed. -/
theorem extractFields_eq_ok {o : Options} {ds : List FieldDecl} {fields : List Field}
    (h : (extractFields o ds).result = .ok fields) :
    ∃ slots ss, (slotsOfDecls o ds).result = .ok slots ∧
      Placing o.duplicateKeys [] slots fields ss ∧
      (extractFields o ds).notes = (slotsOfDecls o ds).notes ++ ss.map Superseding.note := by
  obtain ⟨slots, hslots, hfields⟩ := bind_eq_ok h
  obtain ⟨ss, hplacing, hnotes⟩ := fieldsOfSlots_eq_ok hfields
  refine ⟨slots, ss, hslots, hplacing, ?_⟩
  rw [extractFields, notes_bind_of_ok hslots, hnotes]

end StructModel.Extract
