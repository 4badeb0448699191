import Mathlib
import StructModel.Proofs.Extract.Entries

/-!
# Parentheses

A type comes to the same with and without parentheses around any of its parts. There is one place
where they matter: a map whose key or value is the name `string` in parentheses is unsupported.
-/

namespace StructModel

/-- Whether a type is the name `string` in parentheses. -/
def Go.TypeExpr.hidesString (t : TypeExpr) : Bool :=
  Extract.isString t.unparen && !Extract.isString t

namespace Go

mutual

/-- A type without its parentheses, and without the texts and lines by which these are known. The
key and the value of a map stay as they are where they hide the name `string`. There are no
parentheses around an embedded type. -/
def TypeExpr.bare : TypeExpr → TypeExpr
  | .name n => .name n
  | .pointer t => .pointer t.bare
  | .slice t => .slice t.bare
  | .array t => .array t.bare
  | .map k v =>
    .map (if k.hidesString then k else k.bare) (if v.hidesString then v else v.bare)
  | .struct ds => .struct (bareFields ds)
  | .interface members => .interface members
  | .paren t => t.bare
  | .other form => .other form

def FieldDecl.bare : FieldDecl → FieldDecl
  | ⟨.named name others, type, _, tag, _⟩ => ⟨.named name others, type.bare, "", tag, 0⟩
  | ⟨.embedded indirect, type, _, tag, _⟩ => ⟨.embedded indirect, type, "", tag, 0⟩

def bareFields : List FieldDecl → List FieldDecl
  | [] => []
  | d :: ds => d.bare :: bareFields ds

end

@[simp] theorem TypeExpr.bare_paren (t : TypeExpr) : (paren t).bare = t.bare := by
  rw [bare]

theorem TypeExpr.bare_unparen (t : TypeExpr) : t.unparen.bare = t.bare := by
  fun_induction unparen t with
  | case1 t ih => rw [ih, bare_paren]
  | case2 => rfl

@[simp] theorem TypeExpr.unparen_bare (t : TypeExpr) : t.bare.unparen = t.bare := by
  refine unparen_eq_self ?_
  induction t with
  | paren t ih =>
      rw [bare_paren]
      exact ih
  | _ => simp [bare]

end Go

namespace Extract

open StructModel.Go Extractor

section Tests

variable (t : TypeExpr)

theorem isByte_bare : isByte t.bare = isByte t := by
  unfold isByte
  rw [TypeExpr.unparen_bare, ← TypeExpr.bare_unparen]
  cases h : t.unparen with
  | paren u => exact absurd h (TypeExpr.unparen_ne_paren t u)
  | _ => simp [TypeExpr.bare]

theorem isDynamic_bare : isDynamic t.bare = isDynamic t := by
  unfold isDynamic
  rw [TypeExpr.unparen_bare, ← TypeExpr.bare_unparen]
  cases h : t.unparen with
  | paren u => exact absurd h (TypeExpr.unparen_ne_paren t u)
  | _ => simp [TypeExpr.bare]

theorem isDynamic_unparen : isDynamic t.unparen = isDynamic t := by
  unfold isDynamic
  rw [TypeExpr.unparen_unparen]

variable {t}

theorem isString_iff : isString t = true ↔ t = .name "string" := by
  cases t <;> simp [isString]

theorem isString_unparen (h : t.hidesString = false) : isString t.unparen = isString t := by
  cases hstring : isString t with
  | true =>
      rw [isString_iff.mp hstring]
      rfl
  | false => simpa [TypeExpr.hidesString, hstring] using h

theorem isString_bare (h : t.hidesString = false) : isString t.bare = isString t := by
  rw [← isString_unparen h, ← TypeExpr.bare_unparen]
  cases hunparen : t.unparen with
  | paren u => exact absurd hunparen (TypeExpr.unparen_ne_paren t u)
  | _ => simp [TypeExpr.bare, isString]

/-- Nor is a hidden `string` taken for a type of values of any shape. -/
theorem isDynamic_of_hidesString (h : t.hidesString = true) : isDynamic t = false := by
  simp only [TypeExpr.hidesString, Bool.and_eq_true] at h
  rw [← isDynamic_unparen, isString_iff.mp h.1]
  rfl

theorem isString_of_hidesString (h : t.hidesString = true) : isString t = false := by
  simp only [TypeExpr.hidesString, Bool.and_eq_true, Bool.not_eq_true'] at h
  exact h.2

end Tests

section Maps

variable {k v : TypeExpr}

theorem mapElement_of_hidesString (h : k.hidesString = true ∨ v.hidesString = true) :
    mapElement k v = none := by
  unfold mapElement
  rcases h with h | h
  · simp [isString_of_hidesString h]
  · simp [isString_of_hidesString h, isDynamic_of_hidesString h]

theorem mapElement_unparen (hk : k.hidesString = false) (hv : v.hidesString = false) :
    mapElement k.unparen v.unparen = mapElement k v := by
  simp only [mapElement, isString_unparen hk, isString_unparen hv, isDynamic_unparen]

/-- A map looks at its key and its value in these ways only. -/
theorem mapElement_congr {k' v' : TypeExpr} (hk : isString k' = isString k)
    (hv : isString v' = isString v) (hdynamic : isDynamic v' = isDynamic v) :
    mapElement k' v' = mapElement k v := by
  simp only [mapElement, hk, hv, hdynamic]

end Maps

variable (o : Options)

theorem map_fieldsOfEntry_bareFields {ds : List FieldDecl}
    (h : ∀ d ∈ ds, (build o d.type.bare).result = (build o d.type).result) :
    (entries (bareFields ds)).map (fieldsOfEntry o) = (entries ds).map (fieldsOfEntry o) := by
  induction ds with
  | nil => rfl
  | cons d ds ih =>
      have hd : d.bare.entries.map (fieldsOfEntry o) = d.entries.map (fieldsOfEntry o) := by
        have htype := h d List.mem_cons_self
        obtain ⟨_ | indirect, type, text, tag, line⟩ := d
        · refine map_fieldsOfEntry_congr rfl rfl htype ?_
          intro indirect hbinding
          cases hbinding
        · exact map_fieldsOfEntry_congr rfl rfl rfl fun _ _ n => Iff.rfl
      have hds := ih fun e he => h e (List.mem_cons_of_mem d he)
      simp only [bareFields, entries, List.flatMap_cons, List.map_append] at hd hds ⊢
      rw [hd, hds]

/-- A type comes to what its bare form comes to. -/
theorem result_build_bare (t : TypeExpr) : (build o t.bare).result = (build o t).result := by
  induction t with
  | name n => rw [TypeExpr.bare]
  | pointer t ih => rw [TypeExpr.bare, build, build, result_layer, result_layer, ih]
  | slice t ih =>
      rw [TypeExpr.bare, build, build, isByte_bare]
      split
      · rfl
      · rw [result_layer, result_layer, ih]
  | array t ih =>
      rw [TypeExpr.bare, build, build, isByte_bare]
      split
      · rfl
      · rw [result_layer, result_layer, ih]
  | map k v =>
      rw [TypeExpr.bare, build, build, result_pure, result_pure]
      refine congrArg Except.ok (mapElement_congr ?_ ?_ ?_)
      · split
        · rfl
        · exact isString_bare (Bool.eq_false_iff.mpr ‹_›)
      · split
        · rfl
        · exact isString_bare (Bool.eq_false_iff.mpr ‹_›)
      · split
        · rfl
        · exact isDynamic_bare v
  | struct ds ih =>
      rw [TypeExpr.bare, result_build_struct, result_build_struct, settledFields, settledFields,
        fieldsOfEntries, fieldsOfEntries, map_fieldsOfEntry_bareFields o ih]
  | interface members => rw [TypeExpr.bare]
  | paren t ih =>
      rw [TypeExpr.bare_paren, build_paren]
      exact ih
  | other form => rw [TypeExpr.bare]

/-- Types that differ in parentheses alone come to the same element, or are both unsupported, or
have the same clash, wherever they stand. The one exception is the name `string` in parentheses as
the key or the value of a map, which makes the map unsupported. -/
theorem build_eq_of_bare_eq :
    (∀ t u : TypeExpr, t.bare = u.bare → ∀ s, (build o t s).1 = (build o u s).1) ∧
      ∀ (k v : TypeExpr) (s : Scope),
        (k.hidesString = true ∨ v.hidesString = true → (build o (.map k v) s).1 = .ok none) ∧
        (k.hidesString = false → v.hidesString = false →
          (build o (.map k v) s).1 = (build o (.map k.unparen v.unparen) s).1) := by
  constructor
  · intro t u htu s
    have hresult : (build o t).result = (build o u).result := by
      rw [← result_build_bare, htu, result_build_bare]
    rw [run_eq (x := build o t), run_eq (x := build o u), hresult]
  · intro k v s
    rw [build, build]
    constructor
    · intro h
      rw [mapElement_of_hidesString h]
      rfl
    · intro hk hv
      rw [mapElement_unparen hk hv]

/-- A row of structs with a field of rows of bytes. -/
def rowsType : TypeExpr :=
  .slice (.struct [⟨.named "Rows" [], .array (.slice (.name "byte")), "[4][]byte",
    some "`msg:\"rows\"`", 4⟩])

/-- The same type with parentheses around many of its parts. -/
def wrappedRowsType : TypeExpr :=
  .paren (.slice (.paren (.struct [⟨.named "Rows" [],
    .paren (.array (.slice (.paren (.paren (.name "byte"))))), "([4][]((byte)))",
    some "`msg:\"rows\"`", 5⟩])))

theorem build_eq_of_bare_eq_rowsType :
    rowsType.bare = wrappedRowsType.bare ∧
      (build {} wrappedRowsType {}).1 = .ok (some (.sequence (.aggregate
        [⟨"Rows", "rows", .sequence (.base .bytes)⟩]))) ∧
      (build {} (.map (.name "string") (.name "string")) {}).1 = .ok (some (.base .mapStrStr)) ∧
      (build {} (.map (.paren (.name "string")) (.name "string")) {}).1 = .ok none := by
  have hbare : rowsType.bare = wrappedRowsType.bare := rfl
  have hrows : (build {} rowsType {}).1 = .ok (some (.sequence (.aggregate
      [⟨"Rows", "rows", .sequence (.base .bytes)⟩]))) := by
    cbv
  refine ⟨hbare, ?_, rfl, ?_⟩
  · exact ((build_eq_of_bare_eq {}).1 rowsType wrappedRowsType hbare {}).symm.trans hrows
  · exact ((build_eq_of_bare_eq {}).2 (.paren (.name "string")) (.name "string") {}).1 (Or.inl rfl)

end Extract

end StructModel
