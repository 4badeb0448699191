import StructModel.Proofs.Extract.Layers

/-!
# The frame of an extraction

However the extraction of a type or of a struct ends, it goes back to the path where it started and
only adds to the diagnostics. Where it starts, for which declaration and after which diagnostics
makes no difference to its end. No struct within an unsupported type is extracted, so nothing is
noted there, and all that remains of its field is one warning.
-/

namespace StructModel.Extract

open StructModel.Go Extractor

/-- The notes made so far as the diagnostics of a declaration. -/
def Scope.diagnostics (declaration : String) (s : Scope) : List Diagnostic :=
  s.notes.map (Note.diagnostic declaration)

variable {α : Type}

/-- Two extractions end with one value, or on one duplicate key, whatever struct it is told of. -/
inductive SameOutcome : Except ExtractError α → Except ExtractError α → Prop
  | value (a : α) : SameOutcome (.ok a) (.ok a)
  | duplicateKey (file declaration declaration' key : String) :
      SameOutcome (.error (.duplicateKey file declaration key))
        (.error (.duplicateKey file declaration' key))

/-- What an extractor leaves as it is, and what has no influence on it. -/
structure Extractor.IsFramed (x : Extractor α) : Prop where
  path_eq : ∀ s : Scope, (x s).2.path = s.path
  diagnostics_prefix : ∀ (s : Scope) (declaration : String),
    s.diagnostics declaration <+: (x s).2.diagnostics declaration
  sameOutcome : ∀ (s s' : Scope) (file : String) (d d' : AggregateDecl),
    SameOutcome ((x s).1.mapError (clashError file d)) ((x s').1.mapError (clashError file d'))

theorem isFramed_of_uniform (x : Extractor α) [Uniform x] : x.IsFramed where
  path_eq s := by rw [run_eq (x := x) s]
  diagnostics_prefix s declaration := by
    rw [run_eq (x := x) s]
    exact (List.prefix_append _ _).map (Note.diagnostic declaration)
  sameOutcome s s' file d d' := by
    rw [run_eq (x := x) s, run_eq (x := x) s']
    cases x.result with
    | ok a => exact SameOutcome.value a
    | error c => exact SameOutcome.duplicateKey file _ _ c.key

section Unsupported

variable {o : Options}

/-- Whatever makes a type unsupported makes it so everywhere, before anything is noted. -/
theorem build_eq_pure_none {t : TypeExpr} {s : Scope} (h : (build o t s).1 = .ok none) :
    build o t = pure none := by
  rw [build_core, build_of_not_isSupported (not_isSupported_of_build h)]
  rfl

theorem slot_pure_none (name key text : String) (line : Nat) :
    slot name key text line (pure none) =
      (note name (.unsupported text) line >>= fun _ => pure []) := by
  unfold slot
  rw [within_pure]
  rfl

theorem slotsOfNames_pure_none (text : String) (line : Nat) (names : List String) (s : Scope) :
    slotsOfNames text line (pure none) names s =
      (.ok [], ⟨s.path, s.notes ++
        names.map fun n => ⟨s.path, n, .unsupported text, line⟩⟩) := by
  induction names generalizing s with
  | nil =>
      rw [List.map_nil, List.append_nil]
      rfl
  | cons n ns ih =>
      rw [slotsOfNames, slot_pure_none]
      simp only [bind_apply, note, pure_apply, ih, List.append_assoc, List.map_cons,
        List.cons_append, List.nil_append]

/-- The note on a listed field of the struct at a path whose type is unsupported. -/
def unsupportedNote (path : List String) (e : Entry) : Note :=
  ⟨path, e.leaf, .unsupported e.decl.text, e.decl.line⟩

/-- The diagnostic that it comes to. -/
def unsupportedWarning (declaration : String) (path : List String) (e : Entry) : Diagnostic :=
  let fieldPath := dotted (path ++ [e.leaf])
  (((Diagnostic.warning ("field " ++ fieldPath ++ " skipped: unsupported type `" ++ e.decl.text ++
    "`")).inDeclaration declaration).onField fieldPath).atLine e.decl.line

/-- A field that its tag gives a key is left out with the note on its type alone. -/
theorem taggedSlot_pure_none {tag : Option String} {name key : String}
    (h : tagEffect o tag name = .key key) (text : String) (line : Nat) :
    taggedSlot o tag name text line (pure none) =
      (note name (.unsupported text) line >>= fun _ => pure []) := by
  rw [taggedSlot, h]
  exact slot_pure_none name key text line

theorem exists_key_of_isSome_keyOfEntry {e : Entry} (h : (keyOfEntry o e).isSome = true)
    (hsingle : ∀ name other others, e.decl.binding ≠ .named name (other :: others)) :
    ∃ key, tagEffect o e.decl.tag e.leaf = .key key := by
  cases heffect : tagEffect o e.decl.tag e.leaf with
  | key k => exact ⟨k, rfl⟩
  | exclude =>
      unfold keyOfEntry at h
      split at h
      · exact absurd ‹_› (hsingle _ _ _)
      · simp [heffect] at h
      · simp [heffect] at h
      · cases h

/-- All that remains of a declaration of an unsupported type is the note on each of its fields. -/
theorem slotsOfDecl_of_unsupported {d : FieldDecl} (htype : build o d.type = pure none)
    (hkeys : ∀ e ∈ d.entries, (keyOfEntry o e).isSome = true) (s : Scope) :
    slotsOfDecl o d s =
      (.ok [], ⟨s.path, s.notes ++ d.entries.map (unsupportedNote s.path)⟩) := by
  cases d using FieldDecl.shapes with
  | single name type text tag line =>
      obtain ⟨key, heffect⟩ := exists_key_of_isSome_keyOfEntry (hkeys _ List.mem_cons_self)
        (by rintro _ _ _ ⟨⟩)
      rw [slotsOfDecl, htype, taggedSlot_pure_none heffect]
      rfl
  | several name other others type text tag line =>
      unfold slotsOfDecl
      rw [htype, slotsOfNames_pure_none, FieldDecl.entries, List.map_map]
      rfl
  | embedded indirect n text tag line =>
      obtain ⟨key, heffect⟩ := exists_key_of_isSome_keyOfEntry (hkeys _ List.mem_cons_self)
        (by rintro _ _ _ ⟨⟩)
      have helement : (if indirect then layer .optional (build o (.name n))
          else build o (.name n)) = pure none := by
        rw [htype]
        cases indirect <;> rfl
      rw [slotsOfDecl_embedded, helement, taggedSlot_pure_none heffect]
      rfl
  | unnamed indirect type text tag line hname =>
      rw [FieldDecl.entries_unnamed hname] at hkeys
      have hsome := hkeys _ List.mem_cons_self
      rw [keyOfEntry_unnamed hname] at hsome
      cases hsome

end Unsupported

/-- However the extraction of a type or of a struct ends, the path is the one it started from, and
the diagnostics before are still there, with none or more behind them. Its value, or else the key
that it fails on, is the same from every scope and for every declaration. An unsupported type leaves
the scope as it is, so a declaration of such a type whose fields ask for a key adds no slot and one
warning for each field. -/
theorem frame_of_extraction (o : Options) :
    (∀ t, (build o t).IsFramed) ∧ (∀ ds, (extractFields o ds).IsFramed) ∧
      (∀ t s, (build o t s).1 = .ok none → build o t s = (.ok none, s)) ∧
      ∀ d s, (build o d.type s).1 = .ok none →
        (∀ e ∈ d.entries, (keyOfEntry o e).isSome = true) →
          (slotsOfDecl o d s).1 = .ok [] ∧ (slotsOfDecl o d s).2.path = s.path ∧
            ∀ declaration, (slotsOfDecl o d s).2.diagnostics declaration =
              s.diagnostics declaration ++
                d.entries.map (unsupportedWarning declaration s.path) := by
  refine ⟨fun t => isFramed_of_uniform _, fun ds => isFramed_of_uniform _, ?_, ?_⟩
  · intro t s h
    rw [build_eq_pure_none h]
    rfl
  · intro d s h hkeys
    rw [slotsOfDecl_of_unsupported (build_eq_pure_none h) hkeys]
    refine ⟨rfl, rfl, fun declaration => ?_⟩
    rw [Scope.diagnostics, List.map_append, List.map_map]
    rfl

/-- Two fields whose type is a row of pointers to channels. -/
def pipesDecl : FieldDecl :=
  ⟨.named "In" ["Out"], .slice (.pointer (.other .channel)), "[]*chan int", none, 6⟩

/-- The scope within a field, after a note on it. -/
def pumpScope : Scope := ⟨["Pump"], [⟨["Pump"], "Id", .excluded, 5⟩]⟩

theorem frame_of_extraction_pipesDecl :
    (build {} pipesDecl.type pumpScope).1 = .ok none ∧
      (∀ e ∈ pipesDecl.entries, (keyOfEntry {} e).isSome = true) ∧
      build {} pipesDecl.type pumpScope = (.ok none, pumpScope) ∧
      (slotsOfDecl {} pipesDecl pumpScope).1 = .ok [] ∧
      (slotsOfDecl {} pipesDecl pumpScope).2.diagnostics "Plant" =
        [⟨.notice, "field Pump.Id excluded by tag", "Plant", "Pump.Id", some 5⟩,
          ⟨.warning, "field Pump.In skipped: unsupported type `[]*chan int`", "Plant", "Pump.In",
            some 6⟩,
          ⟨.warning, "field Pump.Out skipped: unsupported type `[]*chan int`", "Plant", "Pump.Out",
            some 6⟩] ∧
      (build {} clashingType pumpScope).1 = .error ⟨["Pump"], "A"⟩ ∧
      (build {} clashingType pumpScope).2.path = ["Pump"] := by
  have hnone : (build {} pipesDecl.type pumpScope).1 = .ok none := rfl
  have hkeys : ∀ e ∈ pipesDecl.entries, (keyOfEntry {} e).isSome = true := by decide
  obtain ⟨hbuild, -, hunsupported, hfields⟩ := frame_of_extraction {}
  obtain ⟨hslots, -, hdiagnostics⟩ := hfields pipesDecl pumpScope hnone hkeys
  refine ⟨hnone, hkeys, hunsupported _ _ hnone, hslots, ?_, ?_, ?_⟩
  · rw [hdiagnostics]
    rfl
  · cbv
  · exact (hbuild clashingType).path_eq pumpScope

end StructModel.Extract
