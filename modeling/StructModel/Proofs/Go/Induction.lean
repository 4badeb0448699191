import StructModel.Go.TypeExpr

/-!
# Types and the fields they list

A type holds others directly or as the types of the fields of a struct. Field declarations come in
four shapes, which are treated differently. Each of them lists one field or several.
-/

namespace StructModel.Go

/-- Induction on a type, with the types of all fields of a struct at once. -/
@[elab_as_elim, induction_eliminator]
theorem TypeExpr.induction {motive : TypeExpr → Prop}
    (name : ∀ n, motive (.name n))
    (pointer : ∀ t, motive t → motive (.pointer t))
    (slice : ∀ t, motive t → motive (.slice t))
    (array : ∀ t, motive t → motive (.array t))
    (map : ∀ k v, motive k → motive v → motive (.map k v))
    (struct : ∀ ds, (∀ d ∈ ds, motive d.type) → motive (.struct ds))
    (interface : ∀ members, motive (.interface members))
    (paren : ∀ t, motive t → motive (.paren t))
    (other : ∀ form, motive (.other form)) : ∀ t, motive t :=
  TypeExpr.rec (motive_1 := motive) (motive_2 := fun d => motive d.type)
    (motive_3 := fun ds => ∀ d ∈ ds, motive d.type)
    name pointer slice array map struct interface paren other
    (fun _ _ _ _ _ htype => htype)
    (fun _ hd => nomatch hd)
    (fun _ _ hhead htail d hd =>
      (List.mem_cons.mp hd).elim (fun h => h ▸ hhead) (fun h => htail d h))

/-- The shapes of field declarations: with one name, with several names, embedded with a plain name
for its type, and embedded with any other type. -/
@[elab_as_elim]
theorem FieldDecl.shapes {motive : FieldDecl → Prop}
    (single : ∀ name type text tag line, motive ⟨.named name [], type, text, tag, line⟩)
    (several : ∀ name other others type text tag line,
      motive ⟨.named name (other :: others), type, text, tag, line⟩)
    (embedded : ∀ indirect n text tag line, motive ⟨.embedded indirect, .name n, text, tag, line⟩)
    (unnamed : ∀ indirect type text tag line, (∀ n, type ≠ .name n) →
      motive ⟨.embedded indirect, type, text, tag, line⟩) : ∀ d, motive d := by
  rintro ⟨⟨name, _ | ⟨other, others⟩⟩ | indirect, type, text, tag, line⟩
  · exact single name type text tag line
  · exact several name other others type text tag line
  · by_cases h : ∃ n, type = .name n
    · obtain ⟨n, rfl⟩ := h
      exact embedded indirect n text tag line
    · exact unnamed indirect type text tag line fun n hn => h ⟨n, hn⟩

/-- A field as a struct lists it: a declaration with the name that the field goes by. -/
structure Entry where
  decl : FieldDecl
  leaf : String

/-- The fields that a declaration lists. One that is embedded without a name goes by the text of its
type. -/
def FieldDecl.entries (d : FieldDecl) : List Entry :=
  match d.binding, d.type with
  | .named name others, _ => (name :: others).map (Entry.mk d)
  | .embedded _, .name n => [⟨d, n⟩]
  | .embedded _, _ => [⟨d, d.text⟩]

/-- The fields that a struct with the given declarations lists. -/
def entries (ds : List FieldDecl) : List Entry := ds.flatMap FieldDecl.entries

theorem FieldDecl.entries_unnamed {indirect : Bool} {type : TypeExpr} {text : String}
    {tag : Option String} {line : Nat} (h : ∀ n, type ≠ .name n) :
    FieldDecl.entries ⟨.embedded indirect, type, text, tag, line⟩ =
      [⟨⟨.embedded indirect, type, text, tag, line⟩, text⟩] := by
  cases type with
  | name n => exact absurd rfl (h n)
  | _ => rfl

theorem FieldDecl.decl_of_mem_entries {d : FieldDecl} {e : Entry} (h : e ∈ d.entries) :
    e.decl = d := by
  cases d using FieldDecl.shapes with
  | single name type text tag line => rw [List.mem_singleton.mp h]
  | several name other others type text tag line =>
      obtain ⟨n, -, rfl⟩ := List.mem_map.mp h
      rfl
  | embedded indirect n text tag line => rw [List.mem_singleton.mp h]
  | unnamed indirect type text tag line hname =>
      rw [entries_unnamed hname] at h
      rw [List.mem_singleton.mp h]

/-- The declarations of the entries of a struct are those of the struct. -/
theorem decl_mem_of_mem_entries {ds : List FieldDecl} {e : Entry} (h : e ∈ entries ds) :
    e.decl ∈ ds := by
  obtain ⟨d, hd, he⟩ := List.mem_flatMap.mp h
  rw [FieldDecl.decl_of_mem_entries he]
  exact hd

theorem mem_entries_of_binding {ds : List FieldDecl} {d : FieldDecl} (hd : d ∈ ds) {name : String}
    {others : List String} (h : d.binding = .named name others) : ⟨d, name⟩ ∈ entries ds := by
  obtain ⟨binding, type, text, tag, line⟩ := d
  cases h
  exact List.mem_flatMap.mpr ⟨_, hd, List.mem_cons_self⟩

/-- A type holds the struct with the given fields when it is that struct, or points to it, or is a
row of it. -/
inductive TypeExpr.Holds : TypeExpr → List FieldDecl → Prop
  | struct (ds : List FieldDecl) : Holds (.struct ds) ds
  | pointer {t : TypeExpr} {ds : List FieldDecl} (h : Holds t ds) : Holds (.pointer t) ds
  | slice {t : TypeExpr} {ds : List FieldDecl} (h : Holds t ds) : Holds (.slice t) ds
  | array {t : TypeExpr} {ds : List FieldDecl} (h : Holds t ds) : Holds (.array t) ds
  | paren {t : TypeExpr} {ds : List FieldDecl} (h : Holds t ds) : Holds (.paren t) ds

theorem TypeExpr.Holds.unparen_ne_name {t : TypeExpr} {ds : List FieldDecl} (h : t.Holds ds)
    (n : String) : t.unparen ≠ .name n := by
  induction h with
  | paren h ih =>
      rw [unparen_paren]
      exact ih
  | _ => simp [unparen]

end StructModel.Go
