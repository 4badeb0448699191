import StructModel.Proofs.Extract.Declarations

/-!
# Diagnostics of nested structs

What a struct has to say does not depend on where it stands, except that the path to it comes in
front of the paths of its fields. There is one exception: an embedded field without a name is called
by the text of its type alone, wherever its struct stands.
-/

namespace StructModel.Extract

open StructModel.Go Extractor

namespace Note

/-- The note is on an embedded field without a name. -/
def isUnnamed (n : Note) : Bool :=
  match n.cause with
  | .unnamed _ => true
  | _ => false

/-- The message of a note with each field of the struct written in some way. -/
def messageWith (write : String → String) (n : Note) : String :=
  match n.cause with
  | .excluded => "field " ++ write n.leaf ++ " excluded by tag"
  | .unsupported text => "field " ++ write n.leaf ++ " skipped: unsupported type `" ++ text ++ "`"
  | .unnamed text => "embedded field `" ++ text ++ "` skipped: no derivable field name"
  | .superseding earlier key =>
    "field " ++ write earlier ++ " dropped: output key " ++ Text.quoted key ++ " reused by " ++
      write n.leaf

theorem message_eq_messageWith (n : Note) : n.message = n.messageWith n.fieldPath := by
  unfold message messageWith
  cases n.cause <;> rfl

/-- The diagnostic of a note with a path in front of every field path of it, a dot between. -/
def diagnosticUnder (path : List String) (declaration : String) (n : Note) : Diagnostic :=
  { n.diagnostic declaration with
    message := n.messageWith fun leaf => dotted path ++ "." ++ n.fieldPath leaf
    field := some (dotted path ++ "." ++ n.field) }

/-- What the diagnostic of a note comes to when its struct stands at a path. -/
def nestedDiagnostic (path : List String) (declaration : String) (n : Note) : Diagnostic :=
  if n.isUnnamed then n.diagnostic declaration else n.diagnosticUnder path declaration

theorem fieldPath_below {path : List String} (hpath : path ≠ []) (n : Note) (leaf : String) :
    (n.below path).fieldPath leaf = dotted path ++ "." ++ n.fieldPath leaf := by
  have hleaf : n.path ++ [leaf] ≠ [] := by simp
  simp only [fieldPath, path_below, List.append_assoc, dotted]
  exact String.intercalate_append_of_ne_nil hpath hleaf

theorem diagnostic_below {path : List String} (hpath : path ≠ []) (declaration : String)
    (n : Note) :
    (n.below path).diagnostic declaration = n.nestedDiagnostic path declaration := by
  have hwrite := funext (fieldPath_below hpath n)
  obtain ⟨own, leaf, cause, line⟩ := n
  unfold nestedDiagnostic diagnosticUnder diagnostic
  rw [message_eq_messageWith, hwrite]
  cases cause with
  | unnamed text => rfl
  | excluded =>
      simp only [isUnnamed, field, fieldPath_below hpath, severity, cause_below]
      rfl
  | unsupported text =>
      simp only [isUnnamed, field, fieldPath_below hpath, severity, cause_below]
      rfl
  | superseding earlier key =>
      simp only [isUnnamed, field, fieldPath_below hpath, severity, cause_below]
      rfl

/-- No text is itself with a path and a dot in front of it. -/
theorem ne_prefixed (a b : String) : b ≠ a ++ "." ++ b := by
  intro h
  have hlength := congrArg (fun s => s.toList.length) h
  simp only [String.toList_append, List.length_append] at hlength
  have hdot : ".".toList.length = 1 := rfl
  omega

/-- The path is missing exactly from the diagnostics on fields without a name. -/
theorem nestedDiagnostic_eq_iff (path : List String) (declaration : String) (n : Note) :
    n.nestedDiagnostic path declaration = n.diagnosticUnder path declaration ↔
      n.isUnnamed = false := by
  unfold nestedDiagnostic
  cases hunnamed : n.isUnnamed with
  | false => simp
  | true =>
      simp only [if_true, Bool.true_eq_false, iff_false]
      intro h
      have hfield := congrArg Diagnostic.field h
      exact ne_prefixed _ _ (Option.some.inj hfield)

end Note

theorem isByte_of_holds {t : TypeExpr} {ds : List FieldDecl} (h : t.Holds ds) :
    isByte t = false := by
  unfold isByte
  split
  · rename_i n hn
    exact absurd hn (h.unparen_ne_name n)
  · rfl

section Holds

variable {o : Options} {t : TypeExpr} {ds : List FieldDecl}

/-- A type that holds a struct notes what the struct notes. -/
theorem notes_build_of_holds (h : t.Holds ds) :
    (build o t).notes = (extractFields o ds).notes := by
  induction h with
  | struct ds =>
      rw [build_struct]
      exact notes_bind_pure _
  | pointer h ih =>
      rw [build, notes_layer]
      exact ih
  | slice h ih =>
      rw [build, isByte_of_holds h]
      exact (notes_layer .sequence).trans ih
  | array h ih =>
      rw [build, isByte_of_holds h]
      exact (notes_layer .sequence).trans ih
  | paren h ih =>
      rw [build_paren]
      exact ih

/-- It ends well only when the struct does. -/
theorem ok_of_holds (h : t.Holds ds) {r : Option Element} (hr : (build o t).result = .ok r) :
    ∃ fields, (extractFields o ds).result = .ok fields := by
  induction h generalizing r with
  | struct ds =>
      rw [build_struct] at hr
      obtain ⟨fields, hfields, -⟩ := bind_pure_eq_ok hr
      exact ⟨fields, hfields⟩
  | pointer h ih =>
      rw [build] at hr
      obtain ⟨r', hr', -⟩ := layer_eq_ok hr
      exact ih hr'
  | slice h ih =>
      rw [build, isByte_of_holds h] at hr
      obtain ⟨r', hr', -⟩ := layer_eq_ok hr
      exact ih hr'
  | array h ih =>
      rw [build, isByte_of_holds h] at hr
      obtain ⟨r', hr', -⟩ := layer_eq_ok hr
      exact ih hr'
  | paren h ih =>
      rw [build_paren] at hr
      exact ih hr

end Holds

/-- A listed field whose type is looked into: one with a name of its own that its tag, if it is
heeded, does not exclude. -/
def Builds (o : Options) (e : Entry) : Prop :=
  ∃ name others, e.decl.binding = .named name others ∧
    (others = [] → tagEffect o e.decl.tag e.leaf ≠ .exclude)

/-- The types of the fields at the paths below a struct, through all the structs that they hold. -/
inductive FieldAt (o : Options) : List FieldDecl → List String → TypeExpr → Prop
  | here {ds : List FieldDecl} {e : Entry} (he : e ∈ entries ds) (hbuilds : Builds o e) :
      FieldAt o ds [e.leaf] e.decl.type
  | inside {ds inner : List FieldDecl} {e : Entry} {path : List String} {t : TypeExpr}
      (he : e ∈ entries ds) (hbuilds : Builds o e) (hholds : e.decl.type.Holds inner)
      (h : FieldAt o inner path t) : FieldAt o ds (e.leaf :: path) t

/-- The notes that an entry's type makes stand together among those of an extractor that ends well,
and the type ends well then. -/
def Includes (o : Options) (e : Entry) (x : Extractor (List Slot)) : Prop :=
  ∀ slots, x.result = .ok slots →
    (∃ r, (build o e.decl.type).result = .ok r) ∧
      (build o e.decl.type).notes.map (Note.below [e.leaf]) <:+: x.notes

section Includes

variable {o : Options} {e : Entry}

theorem includes_slot (key : String) :
    Includes o e (slot e.leaf key e.decl.text e.decl.line (build o e.decl.type)) := by
  intro slots h
  obtain ⟨r, hr, -⟩ := slot_eq_ok h
  rw [notes_slot]
  exact ⟨⟨r, hr⟩, (List.prefix_append _ _).isInfix⟩

theorem includes_left {x y : Extractor (List Slot)} [Uniform x] [Uniform y]
    (h : Includes o e x) :
    Includes o e (x >>= fun first => y >>= fun rest => pure (first ++ rest)) := by
  intro slots hslots
  obtain ⟨first, rest, hfirst, -, -, hnotes⟩ := append_eq_ok hslots
  rw [hnotes]
  exact (h first hfirst).imp_right fun hinfix => hinfix.trans (List.prefix_append _ _).isInfix

theorem includes_right {x y : Extractor (List Slot)} [Uniform x] [Uniform y]
    (h : Includes o e y) :
    Includes o e (x >>= fun first => y >>= fun rest => pure (first ++ rest)) := by
  intro slots hslots
  obtain ⟨first, rest, -, hrest, -, hnotes⟩ := append_eq_ok hslots
  rw [hnotes]
  exact (h rest hrest).imp_right fun hinfix => hinfix.trans (List.suffix_append _ _).isInfix

theorem includes_slotsOfNames (d : FieldDecl) {names : List String} {name : String}
    (hname : name ∈ names) :
    Includes o ⟨d, name⟩ (slotsOfNames d.text d.line (build o d.type) names) := by
  induction names with
  | nil => cases hname
  | cons n ns ih =>
      rw [slotsOfNames]
      rcases List.mem_cons.mp hname with rfl | hname
      · exact includes_left (includes_slot (e := ⟨d, name⟩) name)
      · exact includes_right (ih hname)

theorem includes_slotsOfDecl {d : FieldDecl} (he : e ∈ d.entries) (hbuilds : Builds o e) :
    Includes o e (slotsOfDecl o d) := by
  obtain ⟨name, others, hbinding, htag⟩ := hbuilds
  cases d using FieldDecl.shapes with
  | single own type text tag line =>
      cases List.mem_singleton.mp he
      cases hbinding
      rw [slotsOfDecl, taggedSlot]
      split
      · rename_i heffect
        exact absurd heffect (htag rfl)
      · exact includes_slot (e := ⟨⟨.named name [], type, text, tag, line⟩, name⟩) _
  | several own other rest type text tag line =>
      obtain ⟨n, hn, rfl⟩ := List.mem_map.mp he
      unfold slotsOfDecl
      exact includes_slotsOfNames ⟨.named own (other :: rest), type, text, tag, line⟩ hn
  | embedded indirect n text tag line =>
      cases List.mem_singleton.mp he
      cases hbinding
  | unnamed indirect type text tag line hname =>
      rw [FieldDecl.entries_unnamed hname] at he
      cases List.mem_singleton.mp he
      cases hbinding

theorem includes_slotsOfDecls {ds : List FieldDecl} (he : e ∈ entries ds) (hbuilds : Builds o e) :
    Includes o e (slotsOfDecls o ds) := by
  induction ds with
  | nil => cases he
  | cons d ds ih =>
      rw [slotsOfDecls]
      rcases List.mem_append.mp he with he | he
      · exact includes_left (includes_slotsOfDecl he hbuilds)
      · exact includes_right (ih he)

end Includes

/-- A run that ends well has the notes of each of its types in one piece. -/
theorem infix_extractFields_of_mem {o : Options} {ds : List FieldDecl} {e : Entry}
    (he : e ∈ entries ds) (hbuilds : Builds o e) {fields : List Field}
    (h : (extractFields o ds).result = .ok fields) :
    (∃ r, (build o e.decl.type).result = .ok r) ∧
      (build o e.decl.type).notes.map (Note.below [e.leaf]) <:+: (extractFields o ds).notes := by
  obtain ⟨slots, ss, hslots, -, hnotes⟩ := extractFields_eq_ok h
  rw [hnotes]
  refine (includes_slotsOfDecls he hbuilds slots hslots).imp_right fun hinfix => ?_
  exact hinfix.trans (List.prefix_append _ _).isInfix

theorem infix_extractFields {o : Options} {ds : List FieldDecl} {path : List String} {t : TypeExpr}
    (hat : FieldAt o ds path t) {fields : List Field}
    (h : (extractFields o ds).result = .ok fields) :
    (build o t).notes.map (Note.below path) <:+: (extractFields o ds).notes := by
  induction hat generalizing fields with
  | here he hbuilds => exact (infix_extractFields_of_mem he hbuilds h).2
  | @inside ds inner e path t he hbuilds hholds hat ih =>
      obtain ⟨⟨r, hr⟩, hinfix⟩ := infix_extractFields_of_mem he hbuilds h
      obtain ⟨fields', hfields'⟩ := ok_of_holds hholds hr
      have hinner := (ih hfields').map (Note.below [e.leaf])
      rw [← notes_build_of_holds hholds, List.map_map] at hinner
      have hbelow : Note.below [e.leaf] ∘ Note.below path = Note.below (e.leaf :: path) :=
        funext fun n => Note.below_below [e.leaf] path n
      rw [hbelow] at hinner
      exact hinner.trans hinfix

/-- Wherever a type that holds a struct stands, it brings about the diagnostics of the struct as a
declaration of its own, one for one, with the path in front of every field path. The one exception
is a field without a name, so that the path is in front of all of them exactly when there is no such
field. In the diagnostics of a declaration around it they stand in one piece. -/
theorem diagnostics_of_nested (o : Options) {t : TypeExpr} {ds : List FieldDecl} (ht : t.Holds ds)
    {path : List String} (hpath : path ≠ []) (prior : List Note) (declaration : String) :
    ∃ added, (build o t ⟨path, prior⟩).2 = ⟨path, prior ++ added⟩ ∧
      added.map (Note.diagnostic declaration) =
        (extractFields o ds {}).2.notes.map (Note.nestedDiagnostic path declaration) ∧
      (added.map (Note.diagnostic declaration) =
          (extractFields o ds {}).2.notes.map (Note.diagnosticUnder path declaration) ↔
        ∀ n ∈ (extractFields o ds {}).2.notes, n.isUnnamed = false) ∧
      ∀ outer fields, FieldAt o outer path t → (extractFields o outer {}).1 = .ok fields →
        added.map (Note.diagnostic declaration) <:+:
          (extractFields o outer {}).2.notes.map (Note.diagnostic declaration) := by
  have hdiagnostics : ((build o t).notes.map (Note.below path)).map (Note.diagnostic declaration) =
      (extractFields o ds {}).2.notes.map (Note.nestedDiagnostic path declaration) := by
    rw [notes_build_of_holds ht, List.map_map]
    exact List.map_congr_left fun n _ => Note.diagnostic_below hpath declaration n
  refine ⟨(build o t).notes.map (Note.below path), ?_, hdiagnostics, ?_, ?_⟩
  · rw [run_eq (x := build o t)]
  · rw [hdiagnostics, List.map_inj_left]
    exact forall₂_congr fun n _ => Note.nestedDiagnostic_eq_iff path declaration n
  · intro outer fields hat h
    exact (infix_extractFields hat h).map (Note.diagnostic declaration)

/-- The fields of a struct that embeds a type without a plain name. -/
def guardedFields : List FieldDecl :=
  [⟨.embedded false, .other .qualified, "sync.Mutex", none, 5⟩,
    ⟨.named "Ok" [], .name "bool", "bool", none, 6⟩]

/-- The fields of a struct around it. -/
def holderFields : List FieldDecl := [⟨.named "Inner" [], .struct guardedFields, "", none, 4⟩]

theorem fieldAt_holderFields : FieldAt {} holderFields ["Inner"] (.struct guardedFields) := by
  let e : Entry := ⟨⟨.named "Inner" [], .struct guardedFields, "", none, 4⟩, "Inner"⟩
  have hbuilds : Builds {} e := ⟨"Inner", [], rfl, fun _ => by decide⟩
  exact FieldAt.here (e := e) List.mem_cons_self hbuilds

theorem diagnostics_of_nested_guardedFields :
    (TypeExpr.struct guardedFields).Holds guardedFields ∧
      ∃ added, (build {} (.struct guardedFields) ⟨["Inner"], []⟩).2 = ⟨["Inner"], added⟩ ∧
        added.map (Note.diagnostic "T") =
          [⟨.warning, "embedded field `sync.Mutex` skipped: no derivable field name", "T",
            "sync.Mutex", some 5⟩] ∧
        added.map (Note.diagnostic "T") ≠
          (extractFields {} guardedFields {}).2.notes.map (Note.diagnosticUnder ["Inner"] "T") ∧
        added.map (Note.diagnostic "T") <:+:
          (extractFields {} holderFields {}).2.notes.map (Note.diagnostic "T") := by
  have hnotes : (extractFields {} guardedFields {}).2.notes =
      [⟨[], "sync.Mutex", .unnamed "sync.Mutex", 5⟩] := rfl
  have hfields : (extractFields {} holderFields {}).1 =
      .ok [⟨"Inner", "Inner", .aggregate [⟨"Ok", "Ok", .base .bool⟩]⟩] := rfl
  obtain ⟨added, hrun, hdiagnostics, hiff, hwhole⟩ :=
    diagnostics_of_nested {} (TypeExpr.Holds.struct guardedFields) (List.cons_ne_nil "Inner" []) []
      "T"
  refine ⟨TypeExpr.Holds.struct guardedFields, added, hrun, ?_, ?_, ?_⟩
  · rw [hdiagnostics, hnotes]
    rfl
  · rw [ne_eq, hiff, hnotes]
    simp [Note.isUnnamed]
  · exact hwhole holderFields _ fieldAt_holderFields hfields

end StructModel.Extract
