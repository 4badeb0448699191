import StructModel.Proofs.Extract.Entries
import StructModel.Proofs.Extract.Lockstep

/-!
# Fields that are left out

An entry of a struct that is left out may as well not be there: the other ones have the same fields
without it, in the same order, or the same clash. So a field declaration can be taken away all of
whose entries are left out.
-/

namespace StructModel.Extract

open StructModel.Go Extractor

variable {o : Options}

/-- A listed field is left out when its tag excludes it, when its type is unsupported, when it is
embedded without a name, or when a later one of the struct takes its output key. -/
inductive IsLeftOut (o : Options) (later : List Entry) (e : Entry) : Prop
  | excluded (hsingle : ∀ name other others, e.decl.binding ≠ .named name (other :: others))
      (htag : tagEffect o e.decl.tag e.leaf = .exclude)
  | unsupported (htype : (build o e.decl.type).result = .ok none)
  | unnamed (indirect : Bool) (hbinding : e.decl.binding = .embedded indirect)
      (htype : ∀ n, e.decl.type ≠ .name n)
  | superseded (hpolicy : o.duplicateKeys = .lastWins) (l : Entry) (hl : l ∈ later) (f g : Field)
      (he : fieldsOfEntry o e = .ok [f]) (hg : fieldsOfEntry o l = .ok [g])
      (hkey : f.outputKey = g.outputKey)

/-- Listed fields are left out one and all, with others listed after them. -/
def AreLeftOut (o : Options) (later : List Entry) : List Entry → Prop
  | [] => True
  | e :: es => IsLeftOut o (es ++ later) e ∧ AreLeftOut o later es

section Entries

variable {e : Entry} {later : List Entry}

theorem settle_lastWins (fields : List Field) :
    settle .lastWins fields = .ok (survivors fields) := by
  obtain ⟨kept, ss, h⟩ := exists_place_lastWins (fields.map fun f => ⟨f, 0⟩) []
  have hkept := (placing_of_place h).eq_survivors List.nodup_nil
  rw [settle, h, hkept, List.nil_append, map_field_slots]

/-- Under `lastWins` nothing clashes. -/
theorem exists_result_of_lastWins (hpolicy : o.duplicateKeys = .lastWins) (t : TypeExpr) :
    ∃ r, (build o t).result = .ok r := by
  have ho : o.under .lastWins = o := by
    rw [Options.under, ← hpolicy]
  have hrun := lockstep_build o t
  rw [ho] at hrun
  cases hrun with
  | agree r hx => exact ⟨r, hx⟩
  | clash r c hx => exact ⟨r, hx⟩

theorem exists_fieldsOfEntry_of_lastWins (hpolicy : o.duplicateKeys = .lastWins) (e : Entry) :
    ∃ fields, fieldsOfEntry o e = .ok fields := by
  obtain ⟨r, hr⟩ : ∃ r, (builderOfEntry o e).result = .ok r := by
    obtain ⟨r, hr⟩ := exists_result_of_lastWins hpolicy e.decl.type
    unfold builderOfEntry
    split
    · exact ⟨r.map .optional, by rw [result_layer, hr]; rfl⟩
    · exact ⟨r, hr⟩
  unfold fieldsOfEntry
  split
  · exact ⟨[], rfl⟩
  · rw [hr]
    exact ⟨_, rfl⟩

theorem exists_fieldsOfEntries_of_lastWins (hpolicy : o.duplicateKeys = .lastWins)
    (es : List Entry) : ∃ fields, fieldsOfEntries o es = .ok fields := by
  induction es with
  | nil => exact ⟨[], rfl⟩
  | cons e es ih =>
      obtain ⟨first, hfirst⟩ := exists_fieldsOfEntry_of_lastWins hpolicy e
      obtain ⟨rest, hrest⟩ := ih
      rw [fieldsOfEntries_cons, hfirst, hrest]
      exact ⟨first ++ rest, rfl⟩

theorem mem_fieldsOfEntries {fields : List Field} {g : Field}
    (hfields : fieldsOfEntries o later = .ok fields) (he : e ∈ later)
    (hg : fieldsOfEntry o e = .ok [g]) : g ∈ fields := by
  unfold fieldsOfEntries at hfields
  cases hparts : inTurn (later.map (fieldsOfEntry o)) with
  | error c =>
      rw [hparts] at hfields
      cases hfields
  | ok parts =>
      rw [hparts] at hfields
      cases hfields
      have hmem : (Except.ok [g] : Except Clash (List Field)) ∈ parts.map .ok := by
        rw [← inTurn_eq_ok_iff.mp hparts, ← hg]
        exact List.mem_map_of_mem he
      obtain ⟨part, hpart, hpart'⟩ := List.mem_map.mp hmem
      cases hpart'
      exact List.mem_flatten.mpr ⟨[g], hpart, List.mem_singleton_self g⟩

/-- An entry without a field makes no difference. -/
theorem settledFields_of_empty (h : fieldsOfEntry o e = .ok []) (earlier later : List Entry) :
    settledFields o (earlier ++ e :: later) = settledFields o (earlier ++ later) := by
  have hlater : fieldsOfEntries o (e :: later) = fieldsOfEntries o later := by
    rw [fieldsOfEntries_cons, h]
    cases fieldsOfEntries o later <;> rfl
  rw [settledFields, settledFields, fieldsOfEntries_append, fieldsOfEntries_append, hlater]

/-- An entry without a key has no field. -/
theorem fieldsOfEntry_of_key_none (h : keyOfEntry o e = none) : fieldsOfEntry o e = .ok [] := by
  rw [fieldsOfEntry, h]

theorem fieldsOfEntry_of_excluded
    (hsingle : ∀ name other others, e.decl.binding ≠ .named name (other :: others))
    (htag : tagEffect o e.decl.tag e.leaf = .exclude) : fieldsOfEntry o e = .ok [] := by
  refine fieldsOfEntry_of_key_none ?_
  unfold keyOfEntry
  split
  · exact absurd ‹_› (hsingle _ _ _)
  · rw [htag]
  · rw [htag]
  · rfl

theorem fieldsOfEntry_of_unsupported (htype : (build o e.decl.type).result = .ok none) :
    fieldsOfEntry o e = .ok [] := by
  have hbuilder : (builderOfEntry o e).result = .ok none := by
    unfold builderOfEntry
    split
    · rw [result_layer, htype]
      rfl
    · exact htype
  unfold fieldsOfEntry
  split
  · rfl
  · rw [hbuilder]
    rfl

/-- Without an entry that is left out a struct has the same fields, or the same clash. -/
theorem settledFields_remove (h : IsLeftOut o later e) (earlier : List Entry) :
    settledFields o (earlier ++ e :: later) = settledFields o (earlier ++ later) := by
  cases h with
  | excluded hsingle htag =>
      exact settledFields_of_empty (fieldsOfEntry_of_excluded hsingle htag) earlier later
  | unsupported htype =>
      exact settledFields_of_empty (fieldsOfEntry_of_unsupported htype) earlier later
  | unnamed indirect hbinding htype =>
      obtain ⟨⟨binding, type, text, tag, line⟩, leaf⟩ := e
      cases hbinding
      exact settledFields_of_empty (fieldsOfEntry_unnamed htype) earlier later
  | superseded hpolicy l hl f g he hg hkey =>
      obtain ⟨first, hfirst⟩ := exists_fieldsOfEntries_of_lastWins hpolicy earlier
      obtain ⟨rest, hrest⟩ := exists_fieldsOfEntries_of_lastWins hpolicy later
      have hmem : g ∈ rest := mem_fieldsOfEntries hrest hl hg
      rw [settledFields, settledFields, fieldsOfEntries_append, fieldsOfEntries_append,
        fieldsOfEntries_cons, hfirst, he, hrest, hpolicy]
      simp only [Except.bind, Except.map, settle_lastWins]
      exact congrArg Except.ok (survivors_remove ⟨g, hmem, hkey⟩)

/-- Entries that are left out can be taken away one after the other, from the first one on. -/
theorem settledFields_removeAll {es : List Entry} (h : AreLeftOut o later es)
    (earlier : List Entry) :
    settledFields o (earlier ++ (es ++ later)) = settledFields o (earlier ++ later) := by
  induction es with
  | nil => rfl
  | cons e es ih => rw [List.cons_append, settledFields_remove h.1 earlier, ih h.2]

end Entries

/-- A declaration can be taken away whose entries are left out. -/
theorem settledFields_removeDecl {before after : List FieldDecl} {d : FieldDecl}
    (h : AreLeftOut o (entries after) d.entries) :
    settledFields o (entries (before ++ d :: after)) =
      settledFields o (entries (before ++ after)) := by
  have hentries : entries (before ++ d :: after) =
      entries before ++ (d.entries ++ entries after) := by
    rw [entries, List.flatMap_append, List.flatMap_cons]
    rfl
  have hrest : entries (before ++ after) = entries before ++ entries after := List.flatMap_append
  rw [hentries, hrest]
  exact settledFields_removeAll h (entries before)

end StructModel.Extract
