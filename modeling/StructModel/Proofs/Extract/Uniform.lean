import StructModel.Extract.Fields

/-!
# Extractors do not look at where they work

An extractor that works in the struct at a path does what it does at the top of a declaration: it
has the same result, and it adds the same notes with the path put in front of theirs. So `result`
and `notes`, the run at the top, say all there is to say about an extractor, and a field is
extracted in the same way wherever its struct stands.
-/

namespace StructModel.Extract

variable {α β : Type}

/-- The note as it reads when its struct stands at a path. -/
def Note.below (path : List String) (n : Note) : Note := { n with path := path ++ n.path }

/-- The clash as it reads when its struct stands at a path. -/
def Clash.below (path : List String) (c : Clash) : Clash := { c with path := path ++ c.path }

namespace Note

@[simp] theorem path_below (p : List String) (n : Note) : (n.below p).path = p ++ n.path := rfl

@[simp] theorem leaf_below (p : List String) (n : Note) : (n.below p).leaf = n.leaf := rfl

@[simp] theorem cause_below (p : List String) (n : Note) : (n.below p).cause = n.cause := rfl

@[simp] theorem line_below (p : List String) (n : Note) : (n.below p).line = n.line := rfl

@[simp] theorem below_nil : Note.below [] = id := rfl

@[simp] theorem below_below (p q : List String) (n : Note) :
    (n.below q).below p = n.below (p ++ q) := by
  simp [below]

end Note

namespace Clash

@[simp] theorem below_nil (c : Clash) : c.below [] = c := rfl

@[simp] theorem below_below (p q : List String) (c : Clash) :
    (c.below q).below p = c.below (p ++ q) := by
  simp [below]

end Clash

/-- A result as it reads when the struct it comes from stands at a path. -/
def placed (path : List String) : Except Clash α → Except Clash α
  | .ok a => .ok a
  | .error c => .error (c.below path)

@[simp] theorem placed_ok (p : List String) (a : α) : placed p (.ok a) = .ok a := rfl

@[simp] theorem placed_error (p : List String) (c : Clash) :
    placed p (.error c : Except Clash α) = .error (c.below p) := rfl

@[simp] theorem placed_nil (r : Except Clash α) : placed [] r = r := by
  cases r <;> rfl

theorem placed_placed (p q : List String) (r : Except Clash α) :
    placed p (placed q r) = placed (p ++ q) r := by
  cases r <;> simp

@[simp] theorem placed_eq_ok_iff {p : List String} {r : Except Clash α} {a : α} :
    placed p r = .ok a ↔ r = .ok a := by
  cases r <;> simp [placed]

namespace Extractor

/-- How an extractor ends at the top of a declaration. -/
def result (x : Extractor α) : Except Clash α := (x {}).1

/-- The notes that an extractor makes at the top of a declaration. -/
def notes (x : Extractor α) : List Note := (x {}).2.notes

/-- An extractor is uniform when its run from any scope is its run at the top, put in place. -/
class Uniform (x : Extractor α) : Prop where
  run_eq : ∀ s : Scope, x s =
    (placed s.path x.result, ⟨s.path, s.notes ++ x.notes.map (Note.below s.path)⟩)

export Uniform (run_eq)

section Operations

variable {x : Extractor α} {f : α → Extractor β}

@[simp] theorem result_pure (a : α) : (pure a : Extractor α).result = .ok a := rfl

@[simp] theorem notes_pure (a : α) : (pure a : Extractor α).notes = [] := rfl

@[simp] theorem result_note (leaf : String) (cause : Cause) (line : Nat) :
    (note leaf cause line).result = .ok () := rfl

@[simp] theorem notes_note (leaf : String) (cause : Cause) (line : Nat) :
    (note leaf cause line).notes = [⟨[], leaf, cause, line⟩] := rfl

@[simp] theorem result_clash (key : String) :
    (clash key : Extractor α).result = .error ⟨[], key⟩ := rfl

@[simp] theorem notes_clash (key : String) : (clash key : Extractor α).notes = [] := rfl

instance (a : α) : Uniform (pure a : Extractor α) where
  run_eq s := by simp

instance (leaf : String) (cause : Cause) (line : Nat) : Uniform (note leaf cause line) where
  run_eq s := by simp [note, Note.below]

instance (key : String) : Uniform (clash key : Extractor α) where
  run_eq s := by simp [clash, Clash.below]

/-- The second part of a bind runs at the top with the notes of the first part before its own. -/
private theorem bind_top [Uniform x] [∀ a, Uniform (f a)] :
    (x >>= f) {} =
      match x.result with
      | .ok a => ((f a).result, ⟨[], x.notes ++ (f a).notes⟩)
      | .error c => (.error c, ⟨[], x.notes⟩) := by
  have hx : x {} = (x.result, ⟨[], x.notes⟩) := by
    simpa using run_eq (x := x) {}
  rw [bind_apply, hx]
  cases h : x.result with
  | ok a =>
      change f a ⟨[], x.notes⟩ = _
      rw [run_eq (x := f a)]
      simp
  | error c => rfl

theorem result_bind [Uniform x] [∀ a, Uniform (f a)] :
    (x >>= f).result =
      match x.result with
      | .ok a => (f a).result
      | .error c => .error c := by
  rw [result, bind_top]
  cases x.result <;> rfl

theorem notes_bind [Uniform x] [∀ a, Uniform (f a)] :
    (x >>= f).notes =
      x.notes ++
        match x.result with
        | .ok a => (f a).notes
        | .error _ => [] := by
  rw [notes, bind_top]
  cases x.result <;> simp

/-- A bind ends well when both of its parts do. -/
theorem bind_eq_ok [Uniform x] [∀ a, Uniform (f a)] {b : β} (h : (x >>= f).result = .ok b) :
    ∃ a, x.result = .ok a ∧ (f a).result = .ok b := by
  rw [result_bind] at h
  cases hx : x.result with
  | ok a =>
      rw [hx] at h
      exact ⟨a, rfl, h⟩
  | error c =>
      rw [hx] at h
      cases h

theorem notes_bind_of_ok [Uniform x] [∀ a, Uniform (f a)] {a : α} (h : x.result = .ok a) :
    (x >>= f).notes = x.notes ++ (f a).notes := by
  rw [notes_bind, h]

theorem mem_notes_bind [Uniform x] [∀ a, Uniform (f a)] {n : Note} (h : n ∈ (x >>= f).notes) :
    n ∈ x.notes ∨ ∃ a, x.result = .ok a ∧ n ∈ (f a).notes := by
  rw [notes_bind, List.mem_append] at h
  refine h.imp_right fun h => ?_
  cases hx : x.result with
  | ok a =>
      rw [hx] at h
      exact ⟨a, rfl, h⟩
  | error c =>
      rw [hx] at h
      cases h

instance [Uniform x] [∀ a, Uniform (f a)] : Uniform (x >>= f) where
  run_eq s := by
    rw [bind_apply, run_eq (x := x) s, result_bind, notes_bind]
    cases h : x.result with
    | ok a =>
        change f a ⟨s.path, s.notes ++ x.notes.map (Note.below s.path)⟩ = _
        rw [run_eq (x := f a)]
        simp
    | error c => simp

theorem result_within (name : String) [Uniform x] :
    (within name x).result = placed [name] x.result := by
  simp only [result, within]
  rw [run_eq (x := x)]
  rfl

theorem notes_within (name : String) [Uniform x] :
    (within name x).notes = x.notes.map (Note.below [name]) := by
  simp only [notes, within]
  rw [run_eq (x := x)]
  simp [notes]

instance (name : String) [Uniform x] : Uniform (within name x) where
  run_eq s := by
    rw [result_within, notes_within, placed_placed]
    simp only [within]
    rw [run_eq (x := x)]
    simp [Function.comp_def]

instance {c : Prop} [Decidable c] {y : Extractor α} [Uniform x] [Uniform y] :
    Uniform (if c then x else y) := by
  split <;> infer_instance

/-- Dropping the value of an extractor keeps its notes. -/
theorem result_bind_pure [Uniform x] (g : α → β) :
    (x >>= fun a => pure (g a)).result = x.result.map g := by
  rw [result_bind]
  cases x.result <;> rfl

theorem notes_bind_pure [Uniform x] (g : α → β) :
    (x >>= fun a => pure (g a)).notes = x.notes := by
  rw [notes_bind]
  cases x.result <;> simp

theorem bind_pure_eq_ok [Uniform x] {g : α → β} {b : β}
    (h : (x >>= fun a => pure (g a)).result = .ok b) : ∃ a, x.result = .ok a ∧ b = g a := by
  obtain ⟨a, ha, hb⟩ := bind_eq_ok h
  exact ⟨a, ha, (Except.ok.inj hb).symm⟩

end Operations

end Extractor

end StructModel.Extract
