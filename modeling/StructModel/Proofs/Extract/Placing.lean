import StructModel.Extract.Duplicates

/-!
# How slots take their places

`Placing` says step by step how slots are placed behind the fields that are kept: a slot with a new
key comes last, and under `lastWins` one with a key in use comes last in the place of its holder. So
those fields are left that no later field has the key of. Under `error` the first key in use ends
the placing, at the slot that supersedes first under `lastWins`.
-/

namespace StructModel.Extract

/-- The fields whose keys no later field has, in order. -/
def survivors : List Field → List Field
  | [] => []
  | f :: fs => if fs.any (sameKey f) then survivors fs else f :: survivors fs

theorem survivors_of_nodup {fields : List Field} (h : (fields.map Field.outputKey).Nodup) :
    survivors fields = fields := by
  induction fields with
  | nil => rfl
  | cons f fs ih =>
      rw [List.map_cons, List.nodup_cons] at h
      have hnew : fs.any (sameKey f) = false := by
        rw [List.any_eq_false]
        intro g hg hsame
        exact h.1 (sameKey_iff.mp hsame ▸ List.mem_map_of_mem hg)
      rw [survivors, hnew, ih h.2]
      rfl

/-- A field makes no difference when a later one has its key. -/
theorem survivors_remove {f : Field} {before after : List Field}
    (h : ∃ g ∈ after, f.outputKey = g.outputKey) :
    survivors (before ++ f :: after) = survivors (before ++ after) := by
  obtain ⟨g, hg, hkey⟩ := h
  induction before with
  | nil =>
      have hany : after.any (sameKey f) = true :=
        List.any_eq_true.mpr ⟨g, hg, sameKey_iff.mpr hkey⟩
      rw [List.nil_append, List.nil_append, survivors, hany, if_pos rfl]
  | cons e es ih =>
      have hany : (es ++ f :: after).any (sameKey e) = (es ++ after).any (sameKey e) := by
        rw [Bool.eq_iff_iff, List.any_eq_true, List.any_eq_true]
        constructor
        · rintro ⟨d, hd, hsame⟩
          rcases List.mem_append.mp hd with hd | hd
          · exact ⟨d, List.mem_append_left after hd, hsame⟩
          rcases List.mem_cons.mp hd with rfl | hd
          · refine ⟨g, List.mem_append_right es hg, ?_⟩
            exact sameKey_iff.mpr ((sameKey_iff.mp hsame).trans hkey)
          · exact ⟨d, List.mem_append_right es hd, hsame⟩
        · rintro ⟨d, hd, hsame⟩
          refine ⟨d, ?_, hsame⟩
          exact List.mem_append.mpr ((List.mem_append.mp hd).imp_right (List.mem_cons_of_mem f))
      rw [List.cons_append, List.cons_append, survivors, survivors, hany, ih]

/-- The fields and the supersedings that placing slots behind the kept fields leads to. -/
inductive Placing (policy : DuplicatePolicy) :
    List Field → List Slot → List Field → List Superseding → Prop
  | done (kept : List Field) : Placing policy kept [] kept []
  | fresh {kept fields : List Field} {s : Slot} {rest : List Slot} {ss : List Superseding}
      (hnew : ∀ f ∈ kept, s.field.outputKey ≠ f.outputKey)
      (tail : Placing policy (kept ++ [s.field]) rest fields ss) :
      Placing policy kept (s :: rest) fields ss
  | supersede {before after fields : List Field} {earlier : Field} {s : Slot} {rest : List Slot}
      {ss : List Superseding} (hpolicy : policy = .lastWins)
      (hkey : s.field.outputKey = earlier.outputKey)
      (hbefore : ∀ f ∈ before, s.field.outputKey ≠ f.outputKey)
      (tail : Placing policy (before ++ after ++ [s.field]) rest fields ss) :
      Placing policy (before ++ earlier :: after) (s :: rest) fields (⟨earlier.sourceName, s⟩ :: ss)

theorem find?_sameKey_eq_none_iff {f : Field} {kept : List Field} :
    kept.find? (sameKey f) = none ↔ ∀ g ∈ kept, f.outputKey ≠ g.outputKey := by
  simp

/-- The holder of a key, with the fields around it, which remain when it is removed. -/
theorem exists_of_find?_sameKey {f earlier : Field} {kept : List Field}
    (h : kept.find? (sameKey f) = some earlier) :
    ∃ before after, kept = before ++ earlier :: after ∧ f.outputKey = earlier.outputKey ∧
      (∀ g ∈ before, f.outputKey ≠ g.outputKey) ∧
      kept.eraseP (sameKey f) = before ++ after := by
  obtain ⟨hkey, before, after, rfl, hbefore⟩ := List.find?_eq_some_iff_append.mp h
  have hnot : ∀ g ∈ before, ¬ sameKey f g = true := by
    intro g hg hsame
    have hno := hbefore g hg
    rw [hsame] at hno
    cases hno
  refine ⟨before, after, rfl, sameKey_iff.mp hkey, ?_, ?_⟩
  · intro g hg hsame
    exact hnot g hg (sameKey_iff.mpr hsame)
  · rw [List.eraseP_append_right _ hnot, List.eraseP_cons_of_pos hkey]

/-- A placing that ends well follows the rules. -/
theorem placing_of_place {policy : DuplicatePolicy} {slots : List Slot} :
    ∀ {kept fields : List Field} {ss : List Superseding},
      place policy kept slots = .ok (fields, ss) → Placing policy kept slots fields ss := by
  induction slots with
  | nil =>
      intro kept fields ss h
      cases h
      exact Placing.done _
  | cons s rest ih =>
      intro kept fields ss h
      unfold place at h
      cases hfind : kept.find? (sameKey s.field) with
      | none =>
          rw [hfind] at h
          exact Placing.fresh (find?_sameKey_eq_none_iff.mp hfind) (ih h)
      | some earlier =>
          rw [hfind] at h
          obtain ⟨before, after, rfl, hkey, hbefore, herase⟩ := exists_of_find?_sameKey hfind
          cases policy with
          | error => cases h
          | lastWins =>
              simp only [herase] at h
              split at h
              · cases h
              · rename_i htail
                cases h
                exact Placing.supersede rfl hkey hbefore (ih htail)

/-- Slots made of some fields, all with one line, have these fields. -/
theorem map_field_slots (line : Nat) (fields : List Field) :
    (fields.map fun f => (⟨f, line⟩ : Slot)).map Slot.field = fields := by
  rw [List.map_map]
  exact List.map_id fields

/-- Slots with new and distinct keys are placed before any other ones. -/
theorem place_append_of_nodup {policy : DuplicatePolicy} {before : List Slot} (rest : List Slot) :
    ∀ {kept : List Field}, ((kept ++ before.map Slot.field).map Field.outputKey).Nodup →
      place policy kept (before ++ rest) = place policy (kept ++ before.map Slot.field) rest := by
  induction before with
  | nil =>
      intro kept h
      rw [List.map_nil, List.append_nil, List.nil_append]
  | cons s before ih =>
      intro kept h
      have hnew : kept.find? (sameKey s.field) = none := by
        refine find?_sameKey_eq_none_iff.mpr fun g hg hkey => ?_
        rw [List.map_append, List.nodup_append] at h
        exact h.2.2 _ (List.mem_map_of_mem hg) _ (by simp) hkey.symm
      rw [List.map_cons, List.append_cons] at h
      rw [List.cons_append, place, hnew, List.map_cons,
        List.append_cons kept s.field (before.map Slot.field)]
      exact ih h

/-- Slots with new and distinct keys are placed as they come, and nothing is superseded. -/
theorem place_of_nodup {policy : DuplicatePolicy} {slots : List Slot} {kept : List Field}
    (h : ((kept ++ slots.map Slot.field).map Field.outputKey).Nodup) :
    place policy kept slots = .ok (kept ++ slots.map Slot.field, []) := by
  have happend := @place_append_of_nodup policy slots [] kept h
  rw [List.append_nil] at happend
  exact happend

/-- Under `lastWins` placing always ends well. -/
theorem exists_place_lastWins (slots : List Slot) :
    ∀ kept, ∃ fields ss, place .lastWins kept slots = .ok (fields, ss) := by
  induction slots with
  | nil => exact fun kept => ⟨kept, [], rfl⟩
  | cons s rest ih =>
      intro kept
      unfold place
      cases kept.find? (sameKey s.field) with
      | none => exact ih _
      | some earlier =>
          obtain ⟨fields, ss, h⟩ := ih (kept.eraseP (sameKey s.field) ++ [s.field])
          exact ⟨fields, ⟨earlier.sourceName, s⟩ :: ss, by simp only [h]⟩

/-- Under `error` placing ends at the first superseding that there is under `lastWins`. -/
theorem place_error_eq {slots : List Slot} :
    ∀ {kept fields : List Field} {ss : List Superseding},
      place .lastWins kept slots = .ok (fields, ss) →
        place .error kept slots =
          match ss with
          | [] => .ok (fields, [])
          | s :: _ => .error s.slot.field.outputKey := by
  induction slots with
  | nil =>
      intro kept fields ss h
      cases h
      rfl
  | cons s rest ih =>
      intro kept fields ss h
      unfold place at h ⊢
      cases hfind : kept.find? (sameKey s.field) with
      | none =>
          rw [hfind] at h
          exact ih h
      | some earlier =>
          rw [hfind] at h
          simp only at h ⊢
          split at h
          · cases h
          · cases h
            rfl

namespace Placing

variable {policy : DuplicatePolicy} {kept fields : List Field} {slots : List Slot}
  {ss : List Superseding}

/-- A field that is kept once the next slot is placed was kept before, or it is that of the slot. -/
private theorem mem_or_mem_cons_of_append {f : Field} {s : Slot} {rest : List Slot}
    (h : f ∈ kept ++ [s.field] ∨ ∃ t ∈ rest, t.field = f) :
    f ∈ kept ∨ ∃ t ∈ s :: rest, t.field = f := by
  rcases h with h | ⟨t, ht, rfl⟩
  · rcases List.mem_append.mp h with h | h
    · exact Or.inl h
    · exact Or.inr ⟨s, List.mem_cons_self, (List.mem_singleton.mp h).symm⟩
  · exact Or.inr ⟨t, List.mem_cons_of_mem s ht, rfl⟩

private theorem mem_of_mem_without {f earlier : Field} {before after : List Field}
    (h : f ∈ before ++ after) : f ∈ before ++ earlier :: after :=
  List.mem_append.mpr ((List.mem_append.mp h).imp_right (List.mem_cons_of_mem earlier))

/-- Placing makes up no fields. -/
theorem mem (h : Placing policy kept slots fields ss) :
    ∀ f ∈ fields, f ∈ kept ∨ ∃ s ∈ slots, s.field = f := by
  induction h with
  | done => exact fun f hf => Or.inl hf
  | fresh hnew tail ih => exact fun f hf => mem_or_mem_cons_of_append (ih f hf)
  | supersede hpolicy hkey hbefore tail ih =>
      exact fun f hf => (mem_or_mem_cons_of_append (ih f hf)).imp_left mem_of_mem_without

/-- What supersedes is one of the slots, and what it supersedes was kept or is one of them. -/
theorem mem_supersedings (h : Placing policy kept slots fields ss) :
    ∀ s ∈ ss, s.slot ∈ slots ∧
      ∃ f, (f ∈ kept ∨ ∃ t ∈ slots, t.field = f) ∧ f.sourceName = s.earlier := by
  induction h with
  | done => exact fun s hs => nomatch hs
  | @fresh kept fields t rest ss hnew tail ih =>
      intro s hs
      obtain ⟨hslot, f, hf, hearlier⟩ := ih s hs
      refine ⟨List.mem_cons_of_mem t hslot, f, ?_, hearlier⟩
      exact mem_or_mem_cons_of_append hf
  | @supersede before after fields earlier t rest ss hpolicy hkey hbefore tail ih =>
      intro s hs
      rcases List.mem_cons.mp hs with rfl | hs
      · refine ⟨List.mem_cons_self, earlier, Or.inl ?_, rfl⟩
        exact List.mem_append_right before List.mem_cons_self
      · obtain ⟨hslot, f, hf, hearlier⟩ := ih s hs
        refine ⟨List.mem_cons_of_mem t hslot, f, ?_, hearlier⟩
        exact (mem_or_mem_cons_of_append hf).imp_left mem_of_mem_without

/-- Keys that are distinct stay so when a field with a new one comes last. -/
private theorem nodup_fresh {f : Field} (hkept : (kept.map Field.outputKey).Nodup)
    (hnew : ∀ g ∈ kept, f.outputKey ≠ g.outputKey) :
    ((kept ++ [f]).map Field.outputKey).Nodup := by
  rw [List.map_append, List.nodup_append]
  refine ⟨hkept, by simp, ?_⟩
  intro k hk l hl hkl
  obtain ⟨g, hg, rfl⟩ := List.mem_map.mp hk
  simp only [List.map_cons, List.map_nil, List.mem_singleton] at hl
  exact hnew g hg (hl.symm.trans hkl.symm)

/-- They stay so when a field takes the place of the one with its key. -/
private theorem nodup_supersede {f earlier : Field} {before after : List Field}
    (hkept : ((before ++ earlier :: after).map Field.outputKey).Nodup)
    (hkey : f.outputKey = earlier.outputKey) :
    ((before ++ after ++ [f]).map Field.outputKey).Nodup := by
  have hperm : (before ++ after ++ [earlier]).Perm (before ++ earlier :: after) := by
    rw [List.append_assoc]
    exact List.Perm.append_left before List.perm_append_comm
  have hkeys : (before ++ after ++ [f]).map Field.outputKey =
      (before ++ after ++ [earlier]).map Field.outputKey := by
    simp [hkey]
  rw [hkeys]
  exact ((hperm.map Field.outputKey).nodup_iff).mpr hkept

/-- Keys that are distinct stay so. -/
theorem nodup (h : Placing policy kept slots fields ss)
    (hkept : (kept.map Field.outputKey).Nodup) : (fields.map Field.outputKey).Nodup := by
  induction h with
  | done => exact hkept
  | fresh hnew tail ih => exact ih (nodup_fresh hkept hnew)
  | supersede hpolicy hkey hbefore tail ih => exact ih (nodup_supersede hkept hkey)

/-- What is left are the survivors among the kept fields and those that are placed. -/
theorem eq_survivors (h : Placing policy kept slots fields ss)
    (hkept : (kept.map Field.outputKey).Nodup) :
    fields = survivors (kept ++ slots.map Slot.field) := by
  induction h with
  | done kept => rw [List.map_nil, List.append_nil, survivors_of_nodup hkept]
  | fresh hnew tail ih =>
      rw [ih (nodup_fresh hkept hnew), List.append_assoc]
      rfl
  | @supersede before after fields earlier s rest ss hpolicy hkey hbefore tail ih =>
      rw [ih (nodup_supersede hkept hkey), List.append_assoc, List.append_assoc, List.append_assoc]
      refine (survivors_remove ⟨s.field, ?_, hkey.symm⟩).symm
      simp

end Placing

end StructModel.Extract
