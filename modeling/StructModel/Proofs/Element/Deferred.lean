import Mathlib.Data.List.Induction
import Mathlib.Data.List.Nodup
import StructModel.Proofs.Element.Canonical

/-!
# Deferred names

The names collected from an element are those of the deferred elements within it, read in pre-order
and each taken at its first occurrence. Collecting walks the tree with what has been seen so far, so
it is a fold over the occurrences, and a fold that skips what it has seen erases the repeats.
-/

namespace StructModel

/-- An element stands within another, at whatever depth. -/
inductive Element.Within (d : Element) : Element → Prop
  | here : Within d d
  | sequence {e : Element} (h : Within d e) : Within d (.sequence e)
  | optional {e : Element} (h : Within d e) : Within d (.optional e)
  | aggregate {fs : List Field} {f : Field} (hf : f ∈ fs) (h : Within d f.element) :
      Within d (.aggregate fs)

/-- The name of an element that is deferred itself. -/
def Element.deferredName? : Element → Option String
  | .deferred n => some n
  | _ => none

/-- The names of the deferred elements within an element in pre-order, each as often as it
occurs. -/
def Element.deferredOccurrences (e : Element) : List String :=
  e.subterms.filterMap Element.deferredName?

/-- Add a name that has not been seen. -/
def addUnseen (seen : List String) (n : String) : List String :=
  if seen.contains n then seen else seen ++ [n]

namespace Element

variable {d e : Element}

theorem mem_subterms_self (e : Element) : e ∈ e.subterms := by
  cases e <;> simp [subterms]

theorem mem_subterms_of_within (h : d.Within e) : d ∈ e.subterms := by
  induction h with
  | here => exact mem_subterms_self d
  | sequence h ih => exact List.mem_cons_of_mem _ ih
  | optional h ih => exact List.mem_cons_of_mem _ ih
  | aggregate hf h ih =>
      exact List.mem_cons_of_mem _ (mem_subtermsOfFields_iff.mpr ⟨_, hf, ih⟩)

mutual

theorem within_of_mem_subterms : (e : Element) → d ∈ e.subterms → d.Within e
  | .base k, h => by
      cases List.mem_singleton.mp h
      exact Within.here
  | .sequence e, h => by
      rcases List.mem_cons.mp h with rfl | h
      · exact Within.here
      · exact Within.sequence (within_of_mem_subterms e h)
  | .optional e, h => by
      rcases List.mem_cons.mp h with rfl | h
      · exact Within.here
      · exact Within.optional (within_of_mem_subterms e h)
  | .aggregate fs, h => by
      rcases List.mem_cons.mp h with rfl | h
      · exact Within.here
      · obtain ⟨f, hf, hwithin⟩ := within_of_mem_subtermsOfFields fs h
        exact Within.aggregate hf hwithin
  | .deferred n, h => by
      cases List.mem_singleton.mp h
      exact Within.here

theorem within_of_mem_subtermsOfFields :
    (fs : List Field) → d ∈ subtermsOfFields fs → ∃ f ∈ fs, d.Within f.element
  | [], h => by cases h
  | ⟨name, key, e⟩ :: fs, h => by
      rcases List.mem_append.mp h with h | h
      · exact ⟨⟨name, key, e⟩, List.mem_cons_self, within_of_mem_subterms e h⟩
      · obtain ⟨f, hf, hwithin⟩ := within_of_mem_subtermsOfFields fs h
        exact ⟨f, List.mem_cons_of_mem _ hf, hwithin⟩

end

theorem mem_subterms_iff : d ∈ e.subterms ↔ d.Within e :=
  ⟨within_of_mem_subterms e, mem_subterms_of_within⟩

theorem deferredName?_eq_some_iff {n : String} : e.deferredName? = some n ↔ e = .deferred n := by
  cases e <;> simp [deferredName?]

theorem mem_deferredOccurrences_iff {n : String} :
    n ∈ e.deferredOccurrences ↔ (deferred n).Within e := by
  constructor
  · intro h
    obtain ⟨d, hd, hname⟩ := List.mem_filterMap.mp h
    rw [← deferredName?_eq_some_iff.mp hname]
    exact mem_subterms_iff.mp hd
  · intro h
    exact List.mem_filterMap.mpr ⟨deferred n, mem_subterms_iff.mpr h, rfl⟩

mutual

/-- Whatever has been seen before, the occurrences are added to it one by one. -/
theorem collectDeferred_eq_foldl (seen : List String) :
    (e : Element) → e.collectDeferred seen = e.deferredOccurrences.foldl addUnseen seen
  | .base _ => rfl
  | .sequence e => collectDeferred_eq_foldl seen e
  | .optional e => collectDeferred_eq_foldl seen e
  | .aggregate fs => collectDeferredFields_eq_foldl seen fs
  | .deferred _ => rfl

theorem collectDeferredFields_eq_foldl (seen : List String) :
    (fs : List Field) → collectDeferredFields seen fs =
      ((subtermsOfFields fs).filterMap deferredName?).foldl addUnseen seen
  | [] => rfl
  | ⟨name, key, e⟩ :: fs => by
      rw [collectDeferredFields, collectDeferred_eq_foldl seen e,
        collectDeferredFields_eq_foldl _ fs, subtermsOfFields, List.filterMap_append,
        List.foldl_append]
      rfl

end

end Element

/-- One more occurrence counts only when it is the first of its name. -/
theorem eraseDups_concat (names : List String) (n : String) :
    (names ++ [n]).eraseDups = addUnseen names.eraseDups n := by
  have hseen : names.eraseDups.contains n = names.contains n := by simp
  have hlast : [n].eraseDups = [n] := rfl
  rw [List.eraseDups_append, List.cons_removeAll, List.nil_removeAll, addUnseen, hseen]
  cases names.contains n with
  | true => exact List.append_nil _
  | false => exact congrArg (names.eraseDups ++ ·) hlast

theorem foldl_addUnseen (names : List String) :
    names.foldl addUnseen [] = names.eraseDups := by
  induction names using List.reverseRecOn with
  | nil => rfl
  | append_singleton names n ih => rw [List.foldl_concat, ih, eraseDups_concat]

theorem nodup_eraseDups (names : List String) : names.eraseDups.Nodup := by
  induction names using List.reverseRecOn with
  | nil => exact List.nodup_nil
  | append_singleton names n ih =>
      rw [eraseDups_concat, addUnseen]
      split
      · exact ih
      · rename_i hn
        rw [← List.concat_eq_append]
        exact ih.concat (by simpa using hn)

/-- A further name leaves the order of the others alone and comes after them. -/
theorem idxOf_concat_lt_iff {names : List String} {k m n : String} :
    (names ++ [k]).idxOf m < (names ++ [k]).idxOf n ↔
      names.idxOf m < names.idxOf n ∨ (m = k ∧ n ≠ k ∧ m ∉ names ∧ n ∉ names) := by
  by_cases hm : m ∈ names
  · have hlt := List.idxOf_lt_length_of_mem hm
    rw [List.idxOf_append_of_mem hm]
    by_cases hn : n ∈ names
    · rw [List.idxOf_append_of_mem hn]
      simp [hm]
    · rw [List.idxOf_append_of_notMem hn, List.idxOf_of_notMem hn]
      exact iff_of_true (by omega) (Or.inl hlt)
  · have hle : names.idxOf n ≤ names.length := List.idxOf_le_length
    rw [List.idxOf_append_of_notMem hm, List.idxOf_of_notMem hm, or_iff_right (by omega)]
    by_cases hn : n ∈ names
    · rw [List.idxOf_append_of_mem hn]
      exact iff_of_false (by omega) fun h => h.2.2.2 hn
    · -- neither has an index yet, so the further name alone decides
      rw [List.idxOf_append_of_notMem hn, Nat.add_lt_add_iff_left]
      simp only [List.idxOf_cons, List.idxOf_nil]
      grind

/-- Without the repeats the names stand in the order of their first occurrences. -/
theorem idxOf_eraseDups_lt_iff (names : List String) (m n : String) :
    names.eraseDups.idxOf m < names.eraseDups.idxOf n ↔ names.idxOf m < names.idxOf n := by
  induction names using List.reverseRecOn with
  | nil => rfl
  | append_singleton names k ih =>
      rw [eraseDups_concat, addUnseen, idxOf_concat_lt_iff]
      split
      · rename_i hk
        have hmem : k ∈ names := by simpa using hk
        rw [ih, or_iff_left]
        rintro ⟨rfl, -, hm, -⟩
        exact hm hmem
      · simp only [idxOf_concat_lt_iff, ih, List.mem_eraseDups]

/-- The names collected from an element are the occurrences in it without the repeats. So they are
the names of all deferred elements within it, each one once, and of two names the one that occurs
first in pre-order stands first. -/
theorem Element.deferredNames_by_occurrence (e : Element) :
    e.deferredNames = e.deferredOccurrences.eraseDups ∧
      (∀ n, n ∈ e.deferredNames ↔ (Element.deferred n).Within e) ∧
      e.deferredNames.Nodup ∧
      ∀ m n, e.deferredNames.idxOf m < e.deferredNames.idxOf n ↔
        e.deferredOccurrences.idxOf m < e.deferredOccurrences.idxOf n := by
  have hnames : e.deferredNames = e.deferredOccurrences.eraseDups := by
    rw [deferredNames, collectDeferred_eq_foldl, foldl_addUnseen]
  rw [hnames]
  refine ⟨rfl, fun n => ?_, nodup_eraseDups _, idxOf_eraseDups_lt_iff _⟩
  rw [List.mem_eraseDups, mem_deferredOccurrences_iff]

/-- A name that comes back inside a nested aggregate is not collected again. -/
example :
    Element.deferredNames (.optional (.aggregate [
      ⟨"Buyer", "Buyer", .optional (.deferred "User")⟩,
      ⟨"Items", "Items", .sequence (.deferred "Item")⟩,
      ⟨"Meta", "Meta", .aggregate [⟨"Seller", "Seller", .deferred "User"⟩]⟩])) =
      ["User", "Item"] := by
  decide

end StructModel
