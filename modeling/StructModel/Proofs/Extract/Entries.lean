import StructModel.Proofs.Extract.Outcomes
import StructModel.Proofs.Extract.Relocation

/-!
# Extraction entry by entry

How the fields of a struct come out is told from its entries: each of them has at most one field, by
its name, the output key it asks for and the element of its type, and then these are settled among
one another. The declarations that list the entries play no other part in it.
-/

namespace StructModel.Extract

open StructModel.Go Extractor

variable (o : Options)

/-- The output key that an entry asks for. It asks for none when its tag excludes it, or when it has
no name. A declaration of several names has its tag not heeded. -/
def keyOfEntry (e : Entry) : Option String :=
  match e.decl.binding, e.decl.type with
  | .named _ (_ :: _), _ => some e.leaf
  | .named _ [], _ | .embedded _, .name _ =>
    match tagEffect o e.decl.tag e.leaf with
    | .exclude => none
    | .key k => some k
  | .embedded _, _ => none

/-- The element of an entry, which is optional for an embedded pointer. -/
def builderOfEntry (e : Entry) : Builder :=
  match e.decl.binding with
  | .embedded true => layer .optional (build o e.decl.type)
  | _ => build o e.decl.type

instance (e : Entry) : Uniform (builderOfEntry o e) := by
  unfold builderOfEntry
  split <;> infer_instance

theorem exists_result_builderOfEntry (e : Entry) :
    ∃ form : Element → Element,
      (builderOfEntry o e).result = (build o e.decl.type).result.map (Option.map form) := by
  unfold builderOfEntry
  split
  · exact ⟨.optional, result_layer .optional⟩
  · refine ⟨id, ?_⟩
    cases (build o e.decl.type).result <;> simp [Except.map]

/-- The field of an entry under a key, none for an unsupported type. -/
def fieldsUnder (name key : String) (r : Except Clash (Option Element)) :
    Except Clash (List Field) :=
  (placed [name] r).map fun e => e.toList.map (Field.mk name key)

/-- The field that an entry has, if it has one. -/
def fieldsOfEntry (e : Entry) : Except Clash (List Field) :=
  match keyOfEntry o e with
  | none => .ok []
  | some k => fieldsUnder e.leaf k (builderOfEntry o e).result

def fieldsOfEntries (es : List Entry) : Except Clash (List Field) :=
  (inTurn (es.map (fieldsOfEntry o))).map List.flatten

/-- Settle which fields stay when some have the same output key. -/
def settle (policy : DuplicatePolicy) (fields : List Field) : Except Clash (List Field) :=
  match place policy [] (fields.map fun f => ⟨f, 0⟩) with
  | .error key => .error ⟨[], key⟩
  | .ok (kept, _) => .ok kept

/-- The fields of a struct with the given entries. -/
def settledFields (es : List Entry) : Except Clash (List Field) :=
  (fieldsOfEntries o es).bind (settle o.duplicateKeys)

section InOrder

variable {o}

theorem fieldsOfEntries_append (es fs : List Entry) :
    fieldsOfEntries o (es ++ fs) =
      (fieldsOfEntries o es).bind fun first => (fieldsOfEntries o fs).map (first ++ ·) := by
  simp only [fieldsOfEntries, List.map_append, inTurn_append]
  rcases inTurn (es.map (fieldsOfEntry o)) with c | first
  · rfl
  rcases inTurn (fs.map (fieldsOfEntry o)) with c | rest
  · rfl
  · exact congrArg Except.ok List.flatten_append

theorem fieldsOfEntries_singleton (e : Entry) : fieldsOfEntries o [e] = fieldsOfEntry o e := by
  rw [fieldsOfEntries, List.map_singleton, inTurn_cons]
  cases fieldsOfEntry o e with
  | error c => rfl
  | ok fields => exact congrArg Except.ok (List.append_nil fields)

theorem fieldsOfEntries_cons (e : Entry) (es : List Entry) :
    fieldsOfEntries o (e :: es) =
      (fieldsOfEntry o e).bind fun first => (fieldsOfEntries o es).map (first ++ ·) := by
  rw [← fieldsOfEntries_singleton]
  exact fieldsOfEntries_append [e] es

theorem mem_of_fieldsOfEntries_eq_error {es : List Entry} {c : Clash}
    (h : fieldsOfEntries o es = .error c) : ∃ e ∈ es, fieldsOfEntry o e = .error c := by
  rw [fieldsOfEntries, map_eq_error_iff] at h
  exact List.mem_map.mp (mem_of_inTurn_eq_error h)

theorem exists_fieldsOfEntries_eq_error {es : List Entry} {e : Entry} (he : e ∈ es) {c : Clash}
    (h : fieldsOfEntry o e = .error c) : ∃ c', fieldsOfEntries o es = .error c' := by
  have hmem : .error c ∈ es.map (fieldsOfEntry o) := List.mem_map.mpr ⟨e, he, h⟩
  obtain ⟨c', hc'⟩ := exists_inTurn_eq_error hmem
  exact ⟨c', map_eq_error_iff.mpr hc'⟩

end InOrder

section Congruence

variable {o}

theorem fieldsOfEntry_congr {e f : Entry} (hleaf : f.leaf = e.leaf)
    (hkey : keyOfEntry o f = keyOfEntry o e)
    (hbuilder : (builderOfEntry o f).result = (builderOfEntry o e).result) :
    fieldsOfEntry o f = fieldsOfEntry o e := by
  rw [fieldsOfEntry, fieldsOfEntry, hkey, hleaf, hbuilder]

theorem keyOfEntry_unnamed {indirect : Bool} {type : TypeExpr} {text leaf : String}
    {tag : Option String} {line : Nat} (h : ∀ n, type ≠ .name n) :
    keyOfEntry o ⟨⟨.embedded indirect, type, text, tag, line⟩, leaf⟩ = none := by
  cases type with
  | name n => exact absurd rfl (h n)
  | _ => rfl

theorem fieldsOfEntry_unnamed {indirect : Bool} {type : TypeExpr} {text leaf : String}
    {tag : Option String} {line : Nat} (h : ∀ n, type ≠ .name n) :
    fieldsOfEntry o ⟨⟨.embedded indirect, type, text, tag, line⟩, leaf⟩ = .ok [] := by
  rw [fieldsOfEntry, keyOfEntry_unnamed h]

/-- The fields of a declaration hang on its names, its tag and what its type comes to. Whether an
embedded field has a name hangs on the form of its type. -/
theorem map_fieldsOfEntry_congr {d f : FieldDecl} (hbinding : f.binding = d.binding)
    (htag : f.tag = d.tag) (hresult : (build o f.type).result = (build o d.type).result)
    (hname : ∀ indirect, d.binding = .embedded indirect →
      ∀ n, f.type = .name n ↔ d.type = .name n) :
    f.entries.map (fieldsOfEntry o) = d.entries.map (fieldsOfEntry o) := by
  obtain ⟨binding, type', text', tag', line'⟩ := f
  obtain ⟨binding, type, text, tag, line⟩ := d
  cases hbinding
  cases htag
  cases binding with
  | named name others =>
      simp only [FieldDecl.entries, List.map_map]
      refine List.map_congr_left fun n _ => fieldsOfEntry_congr rfl ?_ hresult
      cases others <;> rfl
  | embedded indirect =>
      by_cases h : ∃ n, type = .name n
      · obtain ⟨n, rfl⟩ := h
        cases (hname indirect rfl n).mpr rfl
        rfl
      · have hold : ∀ n, type ≠ .name n := fun n hn => h ⟨n, hn⟩
        have hnew : ∀ n, type' ≠ .name n := fun n hn => h ⟨n, (hname indirect rfl n).mp hn⟩
        rw [FieldDecl.entries_unnamed hold, FieldDecl.entries_unnamed hnew, List.map_singleton,
          List.map_singleton, fieldsOfEntry_unnamed hold, fieldsOfEntry_unnamed hnew]

end Congruence

/-- The fields of slots, without the lines. -/
def fieldsIn (r : Except Clash (List Slot)) : Except Clash (List Field) :=
  r.map (List.map Slot.field)

section Slots

variable {o} {x : Builder} [Uniform x]

theorem fieldsIn_slot (name key text : String) (line : Nat) :
    fieldsIn (slot name key text line x).result = fieldsUnder name key x.result := by
  rw [result_slot]
  rcases x.result with c | _ | e <;> rfl

theorem fieldsIn_taggedSlot (tag : Option String) (name text : String) (line : Nat) :
    fieldsIn (taggedSlot o tag name text line x).result =
      match tagEffect o tag name with
      | .exclude => .ok []
      | .key k => fieldsUnder name k x.result := by
  unfold taggedSlot
  cases tagEffect o tag name with
  | exclude => rfl
  | key k => exact fieldsIn_slot name k text line

theorem fieldsIn_append {y z : Extractor (List Slot)} [Uniform y] [Uniform z] :
    fieldsIn (y >>= fun first => z >>= fun rest => pure (first ++ rest)).result =
      (fieldsIn y.result).bind fun first => (fieldsIn z.result).map (first ++ ·) := by
  rw [result_bind]
  rcases y.result with c | first
  · rfl
  simp only [result_bind_pure]
  rcases z.result with c | rest
  · rfl
  · exact congrArg Except.ok List.map_append

theorem fieldsIn_slotsOfNames {d : FieldDecl} {name other : String} {others : List String}
    (hbinding : d.binding = .named name (other :: others)) (names : List String) :
    fieldsIn (slotsOfNames d.text d.line (build o d.type) names).result =
      fieldsOfEntries o (names.map (Entry.mk d)) := by
  induction names with
  | nil => rfl
  | cons n ns ih =>
      have hentry : fieldsOfEntry o ⟨d, n⟩ = fieldsUnder n n (build o d.type).result := by
        simp only [fieldsOfEntry, keyOfEntry, builderOfEntry, hbinding]
      rw [slotsOfNames, fieldsIn_append, fieldsIn_slot, ih, List.map_cons,
        fieldsOfEntries_cons, hentry]

end Slots

theorem fieldsIn_slotsOfDecl (d : FieldDecl) :
    fieldsIn (slotsOfDecl o d).result = fieldsOfEntries o d.entries := by
  cases d using FieldDecl.shapes with
  | single name type text tag line =>
      have hentries : FieldDecl.entries ⟨.named name [], type, text, tag, line⟩ =
          [⟨⟨.named name [], type, text, tag, line⟩, name⟩] := rfl
      rw [slotsOfDecl, fieldsIn_taggedSlot, hentries, fieldsOfEntries_singleton]
      simp only [fieldsOfEntry, keyOfEntry, builderOfEntry]
      cases tagEffect o tag name <;> rfl
  | several name other others type text tag line =>
      unfold slotsOfDecl
      exact fieldsIn_slotsOfNames (d := ⟨.named name (other :: others), type, text, tag, line⟩) rfl
        (name :: other :: others)
  | embedded indirect n text tag line =>
      have hentries : FieldDecl.entries ⟨.embedded indirect, .name n, text, tag, line⟩ =
          [⟨⟨.embedded indirect, .name n, text, tag, line⟩, n⟩] := rfl
      rw [slotsOfDecl_embedded, fieldsIn_taggedSlot, hentries, fieldsOfEntries_singleton]
      simp only [fieldsOfEntry, keyOfEntry, builderOfEntry]
      cases tagEffect o tag n with
      | exclude => rfl
      | key k => cases indirect <;> rfl
  | unnamed indirect type text tag line hname =>
      rw [slotsOfDecl_unnamed o text tag line hname, FieldDecl.entries_unnamed hname,
        fieldsOfEntries_singleton, fieldsOfEntry_unnamed hname]
      rfl

theorem fieldsIn_slotsOfDecls (ds : List FieldDecl) :
    fieldsIn (slotsOfDecls o ds).result = fieldsOfEntries o (entries ds) := by
  induction ds with
  | nil => rfl
  | cons d ds ih =>
      have hentries : entries (d :: ds) = d.entries ++ entries ds := rfl
      rw [slotsOfDecls, fieldsIn_append, fieldsIn_slotsOfDecl, ih, hentries, fieldsOfEntries_append]

theorem settle_eq_result_fieldsOfSlots (slots : List Slot) :
    (fieldsOfSlots o slots).result = settle o.duplicateKeys (slots.map Slot.field) := by
  have hslots : (slots.map Slot.field).map (fun f => (⟨f, 0⟩ : Slot)) =
      slots.map (Slot.relocate .forget) := List.map_map
  rw [result_fieldsOfSlots, settle, hslots, place_relocate, resolve]
  rcases place o.duplicateKeys [] slots with key | ⟨fields, ss⟩ <;> rfl

/-- The fields of a struct are those of its entries, settled. -/
theorem result_extractFields (ds : List FieldDecl) :
    (extractFields o ds).result = settledFields o (entries ds) := by
  rw [extractFields, result_bind, settledFields, ← fieldsIn_slotsOfDecls]
  cases (slotsOfDecls o ds).result with
  | error c => rfl
  | ok slots => exact settle_eq_result_fieldsOfSlots o slots

/-- So is the element of the struct. -/
theorem result_build_struct (ds : List FieldDecl) :
    (build o (.struct ds)).result =
      (settledFields o (entries ds)).map fun fields => some (.aggregate fields) := by
  rw [build_struct, result_bind_pure, result_extractFields]

end StructModel.Extract
