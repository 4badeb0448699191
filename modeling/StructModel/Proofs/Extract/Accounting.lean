import Mathlib
import StructModel.Proofs.Extract.Runs
import StructModel.Proofs.Go.Slots

/-!
# Every slot is accounted for

A struct type has its slots one after the other. Each of them is either extracted, in its turn, or
told of by one note that the struct itself makes, and there are no other fields and no other notes
of its own. The notes of nested structs have longer paths, and so are not mistaken for its own.
-/

namespace StructModel.Extract

open StructModel.Grammar StructModel.Go Extractor

section Ledger

variable {α β γ : Type} {R : α → β → Prop} {T : α → γ → Prop}

/-- Each entry in turn is matched with the next of the kept ones or with one of the notes, wherever
this stands, and nothing is matched twice or left over. -/
inductive Accounted (R : α → β → Prop) (T : α → γ → Prop) : List α → List β → List γ → Prop
  | nil : Accounted R T [] [] []
  | kept {a : α} {b : β} {as : List α} {bs : List β} {cs : List γ} (h : R a b)
      (tail : Accounted R T as bs cs) : Accounted R T (a :: as) (b :: bs) cs
  | told {a : α} {c : γ} {as : List α} {bs : List β} {before after : List γ} (h : T a c)
      (tail : Accounted R T as bs (before ++ after)) :
      Accounted R T (a :: as) bs (before ++ c :: after)

namespace Accounted

variable {as as' : List α} {bs bs' : List β} {cs cs' : List γ}

/-- The note on an entry may be the first one. -/
theorem told_first {a : α} {c : γ} (h : T a c) (tail : Accounted R T as bs cs) :
    Accounted R T (a :: as) bs (c :: cs) :=
  @Accounted.told _ _ _ R T a c as bs [] cs h tail

theorem length_eq (h : Accounted R T as bs cs) : as.length = bs.length + cs.length := by
  induction h with
  | nil => rfl
  | kept h tail ih =>
      simp only [List.length_cons, ih]
      omega
  | told h tail ih =>
      simp only [List.length_cons, List.length_append] at ih ⊢
      omega

theorem append (h : Accounted R T as bs cs) (h' : Accounted R T as' bs' cs') :
    Accounted R T (as ++ as') (bs ++ bs') (cs ++ cs') := by
  induction h with
  | nil => exact h'
  | kept h tail ih => exact Accounted.kept h ih
  | @told a c as bs before after h tail ih =>
      rw [List.append_assoc] at ih ⊢
      exact Accounted.told h ih

/-- An entry that is told of may stand anywhere. -/
theorem insert {a : α} {c : γ} (h : T a c) (tail : Accounted R T (as ++ as') bs cs) :
    Accounted R T (as ++ a :: as') bs (c :: cs) := by
  generalize hwhole : as ++ as' = whole at tail
  induction tail generalizing as with
  | nil =>
      obtain ⟨rfl, rfl⟩ := List.append_eq_nil_iff.mp hwhole
      exact told_first h Accounted.nil
  | kept hkept tail ih =>
      cases as with
      | nil =>
          subst hwhole
          exact told_first h (Accounted.kept hkept tail)
      | cons e es =>
          obtain ⟨rfl, hes⟩ := List.cons.inj hwhole
          exact Accounted.kept hkept (ih hes)
  | @told b d bs' kept before after htold tail ih =>
      cases as with
      | nil =>
          subst hwhole
          exact told_first h (Accounted.told htold tail)
      | cons e es =>
          obtain ⟨rfl, hes⟩ := List.cons.inj hwhole
          exact @Accounted.told _ _ _ R T _ d _ _ (c :: before) after htold (ih hes)

/-- What is kept may be accounted for once more. -/
theorem trans {δ : Type} {ds : List δ} {Q : β → δ → Prop} {U : β → γ → Prop} {P : α → δ → Prop}
    (hkept : ∀ a b d, R a b → Q b d → P a d) (htold : ∀ a b c, R a b → U b c → T a c)
    (h : Accounted R T as bs cs) (h' : Accounted Q U bs ds cs') :
    Accounted P T as ds (cs ++ cs') := by
  induction h generalizing ds cs' with
  | nil =>
      cases h'
      exact Accounted.nil
  | kept hR tail ih =>
      cases h' with
      | kept hQ tail' => exact Accounted.kept (hkept _ _ _ hR hQ) (ih tail')
      | @told _ c _ _ before after hU tail' =>
          rw [← List.append_assoc]
          refine Accounted.told (htold _ _ _ hR hU) ?_
          rw [List.append_assoc]
          exact ih tail'
  | told hT tail ih =>
      rw [List.append_assoc, List.cons_append]
      refine Accounted.told hT ?_
      rw [← List.append_assoc]
      exact ih h'

/-- The notes may be seen in another way. -/
theorem map {δ : Type} {U : α → δ → Prop} (f : γ → δ) (hf : ∀ a c, T a c → U a (f c))
    (h : Accounted R T as bs cs) : Accounted R U as bs (cs.map f) := by
  induction h with
  | nil => exact Accounted.nil
  | kept h tail ih => exact Accounted.kept h ih
  | told h tail ih =>
      rw [List.map_append] at ih
      rw [List.map_append, List.map_cons]
      exact Accounted.told (hf _ _ h) ih

/-- Entries may be given by others. -/
theorem comap {δ : Type} {f : α → δ} {S : δ → β → Prop} {U : δ → γ → Prop}
    (h : Accounted S U (as.map f) bs cs) :
    Accounted (fun a b => S (f a) b) (fun a c => U (f a) c) as bs cs := by
  generalize hds : as.map f = ds at h
  induction h generalizing as with
  | nil =>
      rw [List.map_eq_nil_iff] at hds
      subst hds
      exact Accounted.nil
  | kept h tail ih =>
      obtain ⟨a, as', rfl, rfl, hds'⟩ := List.map_eq_cons_iff.mp hds
      exact Accounted.kept h (ih hds')
  | told h tail ih =>
      obtain ⟨a, as', rfl, rfl, hds'⟩ := List.map_eq_cons_iff.mp hds
      exact Accounted.told h (ih hds')

end Accounted

end Ledger

/-- A superseding tells of the field whose place is taken. -/
def Superseding.Tells (f : Field) (s : Superseding) : Prop :=
  s.earlier = f.sourceName ∧ s.slot.field.outputKey = f.outputKey

/-- Each field that is kept or placed stays, or one superseding tells of it. -/
theorem Placing.accounted {policy : DuplicatePolicy} {kept fields : List Field} {slots : List Slot}
    {ss : List Superseding} (h : Placing policy kept slots fields ss) :
    Accounted (fun f g => g = f) (fun f s => policy = .lastWins ∧ s.Tells f)
      (kept ++ slots.map Slot.field) fields ss := by
  induction h with
  | done kept =>
      rw [List.map_nil, List.append_nil]
      induction kept with
      | nil => exact Accounted.nil
      | cons f fs ih => exact Accounted.kept rfl ih
  | fresh hnew tail ih =>
      rw [List.append_assoc] at ih
      exact ih
  | @supersede before after fields earlier s rest ss hpolicy hkey hbefore tail ih =>
      simp only [List.append_assoc, List.cons_append, List.nil_append] at ih
      simp only [List.append_assoc, List.cons_append, List.map_cons]
      exact Accounted.insert ⟨hpolicy, rfl, hkey⟩ ih

/-- The notes on the fields of the struct at a path itself. -/
def ownNotes (path : List String) (notes : List Note) : List Note :=
  notes.filter fun n => n.path = path

theorem ownNotes_append (path : List String) (ms ns : List Note) :
    ownNotes path (ms ++ ns) = ownNotes path ms ++ ownNotes path ns :=
  List.filter_append ..

/-- The notes of a nested struct are not those of the struct around it. -/
theorem ownNotes_nested (name : String) (ns : List Note) :
    ownNotes [] (ns.map (Note.below [name])) = [] := by
  refine List.filter_eq_nil_iff.mpr ?_
  intro n hn
  obtain ⟨m, -, rfl⟩ := List.mem_map.mp hn
  simp

theorem ownNotes_below (path : List String) (ns : List Note) :
    ownNotes path (ns.map (Note.below path)) = (ownNotes [] ns).map (Note.below path) := by
  unfold ownNotes
  rw [List.filter_map]
  refine congrArg (List.map _) (List.filter_congr ?_)
  intro n _
  simp

theorem ownNotes_supersedings (ss : List Superseding) :
    ownNotes [] (ss.map Superseding.note) = ss.map Superseding.note := by
  refine List.filter_eq_self.mpr ?_
  intro n hn
  obtain ⟨s, -, rfl⟩ := List.mem_map.mp hn
  simp [Superseding.note]

/-- What the struct at a path has to say about a slot that it leaves out. -/
inductive Tells (o : Options) (path : List String) (z : FieldSlot) : Note → Prop
  | excluded (h : tagEffect o z.tag z.name = .exclude) :
      Tells o path z ⟨path, z.name, .excluded, z.line⟩
  | unsupported (h : (build o z.type).result = .ok none) :
      Tells o path z ⟨path, z.name, .unsupported z.text, z.line⟩
  | unnamed (hembedded : z.isEmbedded = true) (htype : ∀ n, z.type ≠ .name n) :
      Tells o path z ⟨path, z.name, .unnamed z.text, z.line⟩
  | superseded (leaf key : String) (line : Nat) (h : o.duplicateKeys = .lastWins) :
      Tells o path z ⟨path, leaf, .superseding z.name key, line⟩

theorem Tells.below {o : Options} {z : FieldSlot} {n : Note} (h : Tells o [] z n)
    (path : List String) : Tells o path z (n.below path) := by
  cases h with
  | excluded h =>
      simp only [Note.below, List.append_nil]
      exact Tells.excluded h
  | unsupported h =>
      simp only [Note.below, List.append_nil]
      exact Tells.unsupported h
  | unnamed hembedded htype =>
      simp only [Note.below, List.append_nil]
      exact Tells.unnamed hembedded htype
  | superseded leaf key line h =>
      simp only [Note.below, List.append_nil]
      exact Tells.superseded leaf key line h

/-- An extractor for some slots of a struct type accounts for them by what it extracts and its own
notes. Its other notes come from within the types of these slots. -/
structure Ledger (o : Options) (zs : List FieldSlot) (x : Extractor (List Slot)) : Prop where
  accounted : ∀ slots, x.result = .ok slots →
    Accounted (fun z s => s.field.sourceName = z.name) (Tells o []) zs slots (ownNotes [] x.notes)
  nested : ∀ n ∈ x.notes, n.path = [] ∨ ∃ z ∈ zs, ∃ rest, n.path = z.name :: rest

section Slots

variable {o : Options} {z : FieldSlot}

theorem ledger_nil : Ledger o [] (pure []) where
  accounted slots h := by
    cases h
    exact Accounted.nil
  nested n hn := by cases hn

theorem ledger_append {zs us : List FieldSlot} {x y : Extractor (List Slot)} [Uniform x] [Uniform y]
    (hx : Ledger o zs x) (hy : Ledger o us y) :
    Ledger o (zs ++ us) (x >>= fun first => y >>= fun rest => pure (first ++ rest)) where
  accounted slots h := by
    obtain ⟨first, rest, hfirst, hrest, rfl, hnotes⟩ := append_eq_ok h
    rw [hnotes, ownNotes_append]
    exact (hx.accounted first hfirst).append (hy.accounted rest hrest)
  nested n hn := by
    rcases mem_notes_append hn with hn | hn
    · exact (hx.nested n hn).imp_right fun ⟨z, hz, h⟩ => ⟨z, List.mem_append_left us hz, h⟩
    · exact (hy.nested n hn).imp_right fun ⟨z, hz, h⟩ => ⟨z, List.mem_append_right zs hz, h⟩

/-- A slot that is left out with a note. -/
theorem ledger_note {leaf : String} {cause : Cause} {line : Nat}
    (h : Tells o [] z ⟨[], leaf, cause, line⟩) :
    Ledger o [z] (note leaf cause line >>= fun _ => pure []) where
  accounted slots hslots := by
    cases hslots
    exact Accounted.told_first h Accounted.nil
  nested n hn := by
    cases List.mem_singleton.mp hn
    exact Or.inl rfl

theorem ledger_slot (key : String) {x : Builder} [Uniform x]
    (hx : x.result = .ok none → (build o z.type).result = .ok none) :
    Ledger o [z] (slot z.name key z.text z.line x) where
  accounted slots h := by
    obtain ⟨r, hr, rfl⟩ := slot_eq_ok h
    rw [notes_slot, ownNotes_append, ownNotes_nested, List.nil_append, hr]
    cases r with
    | none => exact Accounted.told_first (Tells.unsupported (hx hr)) Accounted.nil
    | some element => exact Accounted.kept rfl Accounted.nil
  nested n hn := by
    rw [notes_slot, List.mem_append] at hn
    rcases hn with hn | hn
    · obtain ⟨m, -, rfl⟩ := List.mem_map.mp hn
      exact Or.inr ⟨z, List.mem_singleton_self z, m.path, rfl⟩
    · split at hn
      · cases List.mem_singleton.mp hn
        exact Or.inl rfl
      · cases hn

theorem ledger_taggedSlot {x : Builder} [Uniform x]
    (hx : x.result = .ok none → (build o z.type).result = .ok none) :
    Ledger o [z] (taggedSlot o z.tag z.name z.text z.line x) := by
  unfold taggedSlot
  split
  · rename_i heffect
    exact ledger_note (Tells.excluded heffect)
  · exact ledger_slot _ hx

theorem ledger_slotsOfNames (z : FieldSlot) (names : List String) :
    Ledger o (names.map fun n => { z with name := n })
      (slotsOfNames z.text z.line (build o z.type) names) := by
  induction names with
  | nil => exact ledger_nil
  | cons n ns ih =>
      rw [slotsOfNames]
      have hfirst : Ledger o [{ z with name := n }] (slot n n z.text z.line (build o z.type)) :=
        ledger_slot (z := { z with name := n }) n id
      exact ledger_append hfirst ih

end Slots

theorem ledger_slotsOfDecl (o : Options) (d : FieldDecl) :
    Ledger o (d.entries.map Entry.slot) (slotsOfDecl o d) := by
  cases d using FieldDecl.shapes with
  | single name type text tag line =>
      rw [slotsOfDecl]
      exact ledger_taggedSlot (z := ⟨name, false, type, text, tag, line⟩) id
  | several name other others type text tag line =>
      unfold slotsOfDecl
      have hnames := ledger_slotsOfNames (o := o) ⟨name, false, type, text, tag, line⟩
        (name :: other :: others)
      rw [FieldDecl.entries, List.map_map]
      exact hnames
  | embedded indirect n text tag line =>
      rw [slotsOfDecl_embedded]
      refine ledger_taggedSlot (z := ⟨n, true, .name n, text, tag, line⟩) ?_
      intro h
      split at h
      · obtain ⟨r, hr, hnone⟩ := layer_eq_ok h
        rw [hr, Option.map_eq_none_iff.mp hnone.symm]
      · exact h
  | unnamed indirect type text tag line hname =>
      rw [slotsOfDecl_unnamed o text tag line hname, FieldDecl.entries_unnamed hname]
      exact ledger_note (Tells.unnamed (z := ⟨text, true, type, text, tag, line⟩) rfl hname)

theorem ledger_slotsOfDecls (o : Options) (ds : List FieldDecl) :
    Ledger o (fieldSlots ds) (slotsOfDecls o ds) := by
  induction ds with
  | nil =>
      rw [slotsOfDecls]
      exact ledger_nil
  | cons d ds ih =>
      rw [slotsOfDecls, fieldSlots, entries, List.flatMap_cons, List.map_append]
      exact ledger_append (ledger_slotsOfDecl o d) ih

/-- The fields of a struct account for its slots, those that are superseded among them. -/
theorem accounted_extractFields {o : Options} {ds : List FieldDecl} {fields : List Field}
    (h : (extractFields o ds).result = .ok fields) :
    Accounted (fun z f => f.sourceName = z.name) (Tells o []) (fieldSlots ds) fields
      (ownNotes [] (extractFields o ds).notes) := by
  obtain ⟨slots, ss, hslots, hplacing, hnotes⟩ := extractFields_eq_ok h
  have hplaced : Accounted (fun s f => f = s.field)
      (fun s n => ∃ z : Superseding, n = z.note ∧ o.duplicateKeys = .lastWins ∧ z.Tells s.field)
      slots fields (ss.map Superseding.note) :=
    hplacing.accounted.comap.map Superseding.note fun s z hz => ⟨z, rfl, hz⟩
  rw [hnotes, ownNotes_append, ownNotes_supersedings]
  refine ((ledger_slotsOfDecls o ds).accounted slots hslots).trans ?_ ?_ hplaced
  · intro z s f hname hfield
    rw [hfield]
    exact hname
  · rintro z s n hname ⟨w, rfl, hpolicy, hearlier, -⟩
    rw [Superseding.note, hearlier, hname]
    exact Tells.superseded _ _ _ hpolicy

/-- All other notes of a run come from within the types of the slots. -/
theorem nested_extractFields (o : Options) (ds : List FieldDecl) :
    ∀ n ∈ (extractFields o ds).notes,
      n.path = [] ∨ ∃ z ∈ fieldSlots ds, ∃ rest, n.path = z.name :: rest := by
  intro n hn
  rcases mem_notes_bind hn with hn | ⟨slots, -, hn⟩
  · exact (ledger_slotsOfDecls o ds).nested n hn
  · obtain ⟨fields, ss, s, -, -, rfl⟩ := mem_notes_fieldsOfSlots hn
    exact Or.inl rfl

theorem accounted_below {o : Options} {zs : List FieldSlot} {fields : List Field}
    {notes : List Note}
    (h : Accounted (fun z f => f.sourceName = z.name) (Tells o []) zs fields (ownNotes [] notes))
    (path : List String) :
    Accounted (fun z f => f.sourceName = z.name) (Tells o path) zs fields
      (ownNotes path (notes.map (Note.below path))) := by
  rw [ownNotes_below]
  exact h.map (Note.below path) fun z n hn => hn.below path

/-- Wherever a struct stands, and whatever has been noted before, its slots are accounted for in
order by its fields and its own notes. Its other notes are on fields within its slots. -/
theorem exists_accounted_of_ok {o : Options} {ds : List FieldDecl} {s s' : Scope}
    {fields : List Field} (h : extractFields o ds s = (.ok fields, s')) :
    ∃ added, s' = ⟨s.path, s.notes ++ added⟩ ∧
      Accounted (fun z f => f.sourceName = z.name) (Tells o s.path) (fieldSlots ds) fields
        (ownNotes s.path added) ∧
      ∀ n ∈ added, n.path = s.path ∨
        ∃ z ∈ fieldSlots ds, ∃ rest, n.path = s.path ++ z.name :: rest := by
  rw [run_eq (x := extractFields o ds) s, Prod.mk.injEq] at h
  obtain ⟨hresult, rfl⟩ := h
  refine ⟨_, rfl, accounted_below (accounted_extractFields (placed_eq_ok_iff.mp hresult)) s.path,
    fun n hn => ?_⟩
  obtain ⟨m, hm, rfl⟩ := List.mem_map.mp hn
  rcases nested_extractFields o ds m hm with hm | ⟨z, hz, rest, hm⟩
  · exact Or.inl (by simp [hm])
  · exact Or.inr ⟨z, hz, rest, by simp [hm]⟩

/-- A struct type in a tree without errors has slots in one way. Whenever its fields are extracted,
wherever it is nested and whatever has been noted before, the slots are accounted for in order by
these fields and by the struct's own notes, with nothing left over on either side. Its other notes
are on fields within its slots. -/
theorem accounted_structType {t : SyntaxTree} (ht : IsErrorFree t) {children : List SyntaxTree}
    (hstruct : OccursIn (.node .structType children) t) :
    ∃ slots, (∀ slots', StructSlots children slots' ↔ slots' = slots) ∧
      ∀ (o : Options) (s s' : Scope) (fields : List Field),
        extractFields o (structFields children) s = (.ok fields, s') →
          ∃ added, s' = ⟨s.path, s.notes ++ added⟩ ∧
            Accounted (fun z f => f.sourceName = z.name) (Tells o s.path) slots fields
              (ownNotes s.path added) ∧
            (∀ n ∈ added, n.path = s.path ∨
              ∃ z ∈ slots, ∃ rest, n.path = s.path ++ z.name :: rest) ∧
            slots.length = fields.length + (ownNotes s.path added).length := by
  obtain ⟨slots, hslots⟩ := ht.exists_structSlots hstruct
  refine ⟨slots, fun slots' => ⟨fun h => ?_, fun h => h ▸ hslots⟩, ?_⟩
  · rw [← h.fieldSlots_eq, hslots.fieldSlots_eq]
  · intro o s s' fields h
    obtain ⟨added, hs', haccounted, hnested⟩ := exists_accounted_of_ok h
    rw [hslots.fieldSlots_eq] at haccounted hnested
    exact ⟨added, hs', haccounted, hnested, haccounted.length_eq⟩

section Store

/-- A struct type with a field of an unsupported type. -/
def shelfTree : SyntaxTree := .node .structType (structChildren [fieldTree "X" "any"])

/-- Two names of a struct type, an embedded pointer behind a comment, and a field with a tag that
asks for the key of the first one. -/
def storeFields : List SyntaxTree := [
  .node .fieldDeclaration [tokenLeaf .identifier "A", tokenLeaf (.op .comma) ",",
    tokenLeaf .identifier "B", shelfTree],
  newlineLeaf,
  .leaf (.comment ⟨" ", "// embedded", 1⟩),
  .node .fieldDeclaration [tokenLeaf (.op .star) "*", tokenLeaf .identifier "E"],
  newlineLeaf,
  .node .fieldDeclaration [tokenLeaf .identifier "C", tokenLeaf .identifier "bool",
    tokenLeaf .rawStringLiteral "`msg:\"A\"`"]]

def storeTree : SyntaxTree := packageTree [structTree "Store" storeFields]

theorem derives_shelfTree :
    Derives grammar Word.token [.rule .simpleType] (skeleton shelfTree) := by
  refine derives_structType [.rule .fieldDeclaration] (by decide) ?_
  simpa using derives_fieldTree "X" "any"

theorem derives_storeFields :
    Derives grammar Word.token [.rule .fieldDeclaration, .rule .moreFieldDeclarations]
      (skeletonAll storeFields) := by
  have hbool : Derives grammar Word.token [.rule .simpleType, .token .rawStringLiteral]
      (skeletonAll [tokenLeaf .identifier "bool", tokenLeaf .rawStringLiteral "`msg:\"A\"`"]) :=
    .hidden rfl (show [.token .identifier] ∈ _ by decide) (.token rfl (.token rfl .nil))
  -- the declaration with two names
  refine .node rfl
    (show [.token .identifier, .rule .moreFieldNames, .rule .simpleType] ∈ _ by decide)
    (.token rfl (.hidden rfl (show [.token (.op .comma), .token .identifier] ∈ _ by decide)
      (.token rfl (.token rfl derives_shelfTree)))) ?_
  -- the further ones, repeated from the left
  refine .hidden rfl
    (show [.rule .moreFieldDeclarations, .token .newline, .rule .fieldDeclaration] ∈ _ by decide) ?_
  refine .hidden rfl (show [.token .newline, .rule .fieldDeclaration] ∈ _ by decide) ?_
  refine .token rfl (.node rfl (show [.token (.op .star), .token .identifier] ∈ _ by decide)
    (.token rfl (.token rfl .nil)) (.token rfl ?_))
  exact .node rfl
    (show [.token .identifier, .rule .simpleType, .token .rawStringLiteral] ∈ _ by decide)
    (.token rfl hbool) .nil

theorem isErrorFree_storeTree : IsErrorFree storeTree := by
  refine isErrorFree_packageTree ?_
  simpa using derives_structTree "Store" [.rule .fieldDeclaration, .rule .moreFieldDeclarations]
    (by decide) derives_storeFields

theorem occursIn_storeTree :
    OccursIn (.node .structType (structChildren storeFields)) storeTree := by
  refine .within (u := structTree "Store" storeFields) (by simp) ?_
  exact .within (List.mem_cons_of_mem _ List.mem_cons_self)
    (.within (List.mem_cons_of_mem _ List.mem_cons_self) .self)

/-- Of four slots the first is superseded by the last. The two other notes are on the unsupported
field of the nested structs. -/
theorem accounted_structType_storeTree :
    ∃ slots fields s', StructSlots (structChildren storeFields) slots ∧
      extractFields { duplicateKeys := .lastWins } (structFields (structChildren storeFields))
        ⟨["Shop"], []⟩ = (.ok fields, s') ∧
      fields.map Field.sourceName = ["B", "E", "C"] ∧ slots.length = 4 ∧
      ∃ added, s' = ⟨["Shop"], added⟩ ∧
        Accounted (fun z f => f.sourceName = z.name)
          (Tells { duplicateKeys := .lastWins } ["Shop"]) slots fields
          (ownNotes ["Shop"] added) ∧
        (ownNotes ["Shop"] added).length = 1 ∧ added.length = 3 := by
  have hnames : (extractFields { duplicateKeys := .lastWins }
      (structFields (structChildren storeFields)) ⟨["Shop"], []⟩).1.map
        (List.map Field.sourceName) = .ok ["B", "E", "C"] := by
    cbv
  have hadded : (extractFields { duplicateKeys := .lastWins }
      (structFields (structChildren storeFields)) ⟨["Shop"], []⟩).2.notes.length = 3 := by
    cbv
  obtain ⟨slots, hslots, haccounts⟩ :=
    accounted_structType isErrorFree_storeTree occursIn_storeTree
  have hown : StructSlots (structChildren storeFields) slots := (hslots slots).mpr rfl
  have hlength : slots.length = 4 := by
    rw [← hown.fieldSlots_eq]
    cbv
  rcases hrun : extractFields { duplicateKeys := .lastWins }
    (structFields (structChildren storeFields)) ⟨["Shop"], []⟩ with ⟨c | fields, s'⟩ <;>
    rw [hrun] at hnames hadded
  · cases hnames
  · have hfields : fields.map Field.sourceName = ["B", "E", "C"] := Except.ok.inj hnames
    have hcount : fields.length = 3 := by simpa using congrArg List.length hfields
    obtain ⟨added, rfl, haccounted, -, hbalance⟩ := haccounts _ _ _ _ hrun
    rw [hlength, hcount] at hbalance
    exact ⟨slots, fields, _, hown, rfl, hfields, hlength, added, rfl, haccounted,
      (Nat.add_left_cancel hbalance).symm, hadded⟩

end Store

end StructModel.Extract
