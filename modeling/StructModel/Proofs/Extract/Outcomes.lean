/-!
# Outcomes in turn

The outcome of a whole is put together from those of its parts. It ends with the error of the first
part that has one; otherwise it has what all of them give, in order.
-/

namespace StructModel

variable {ε α β : Type}

@[simp] theorem map_eq_error_iff {f : α → β} {r : Except ε α} {e : ε} :
    r.map f = .error e ↔ r = .error e := by
  cases r <;> simp [Except.map]

def inTurn (rs : List (Except ε α)) : Except ε (List α) := rs.mapM id

@[simp] theorem inTurn_nil : inTurn ([] : List (Except ε α)) = .ok [] := rfl

theorem inTurn_cons (r : Except ε α) (rs : List (Except ε α)) :
    inTurn (r :: rs) = r.bind fun a => (inTurn rs).map (a :: ·) := by
  rw [inTurn, List.mapM_cons]
  cases r with
  | error e => rfl
  | ok a => cases h : rs.mapM id <;> simp only [inTurn, h] <;> rfl

theorem inTurn_append (rs ss : List (Except ε α)) :
    inTurn (rs ++ ss) = (inTurn rs).bind fun as => (inTurn ss).map (as ++ ·) := by
  induction rs with
  | nil =>
      rw [List.nil_append, inTurn_nil]
      cases inTurn ss <;> rfl
  | cons r rs ih =>
      rw [List.cons_append, inTurn_cons, inTurn_cons, ih]
      rcases r with e | a
      · rfl
      rcases inTurn rs with e | as
      · rfl
      cases inTurn ss <;> rfl

theorem inTurn_map (f : α → β) (rs : List (Except ε α)) :
    inTurn (rs.map (Except.map f)) = (inTurn rs).map (List.map f) := by
  induction rs with
  | nil => rfl
  | cons r rs ih =>
      rw [List.map_cons, inTurn_cons, inTurn_cons, ih]
      rcases r with e | a
      · rfl
      cases inTurn rs <;> rfl

theorem inTurn_eq_ok_iff {rs : List (Except ε α)} {as : List α} :
    inTurn rs = .ok as ↔ rs = as.map .ok := by
  induction rs generalizing as with
  | nil => cases as <;> simp
  | cons r rs ih =>
      rw [inTurn_cons]
      constructor
      · intro h
        rcases r with e | a
        · cases h
        cases hrs : inTurn rs with
        | error e =>
            rw [hrs] at h
            cases h
        | ok bs =>
            rw [hrs] at h
            cases h
            rw [ih.mp hrs, List.map_cons]
      · intro h
        cases as with
        | nil => cases h
        | cons a as =>
            obtain ⟨rfl, hrs⟩ := List.cons.inj h
            rw [ih.mpr hrs]
            rfl

theorem inTurn_eq_error_iff {rs : List (Except ε α)} {e : ε} :
    inTurn rs = .error e ↔
      ∃ (as : List α) (rest : List (Except ε α)), rs = as.map .ok ++ .error e :: rest := by
  induction rs with
  | nil =>
      constructor
      · intro h
        cases h
      · rintro ⟨as, rest, h⟩
        cases as <;> cases h
  | cons r rs ih =>
      rw [inTurn_cons]
      constructor
      · intro h
        rcases r with e' | a
        · cases h
          exact ⟨[], rs, rfl⟩
        cases hrs : inTurn rs with
        | error e' =>
            rw [hrs] at h
            cases h
            obtain ⟨as, rest, rfl⟩ := ih.mp hrs
            exact ⟨a :: as, rest, rfl⟩
        | ok bs =>
            rw [hrs] at h
            cases h
      · rintro ⟨as, rest, h⟩
        cases as with
        | nil =>
            obtain ⟨rfl, -⟩ := List.cons.inj h
            rfl
        | cons a as =>
            obtain ⟨rfl, hrs⟩ := List.cons.inj h
            rw [ih.mpr ⟨as, rest, hrs⟩]
            rfl

theorem mem_of_inTurn_eq_error {rs : List (Except ε α)} {e : ε} (h : inTurn rs = .error e) :
    .error e ∈ rs := by
  obtain ⟨as, rest, rfl⟩ := inTurn_eq_error_iff.mp h
  exact List.mem_append_right _ List.mem_cons_self

/-- The whole fails when one of its parts does. -/
theorem exists_inTurn_eq_error {rs : List (Except ε α)} {e : ε} (h : .error e ∈ rs) :
    ∃ e', inTurn rs = .error e' := by
  cases hrs : inTurn rs with
  | error e' => exact ⟨e', rfl⟩
  | ok as =>
      rw [inTurn_eq_ok_iff.mp hrs] at h
      obtain ⟨a, -, ha⟩ := List.mem_map.mp h
      cases ha

end StructModel
