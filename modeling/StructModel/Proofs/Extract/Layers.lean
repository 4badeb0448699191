import StructModel.Proofs.Extract.Parentheses
import StructModel.Proofs.Extract.Written
import StructModel.Proofs.Go.Layers

/-!
# The element of a type by its layers

A type is supported when its core is. Its element is that of the core with one optional for each
pointer and one sequence for each row around it, in the same order, except that a row of bytes is
one base element. Only a struct can fail, and it fails as the extraction of its fields does.
-/

namespace StructModel

open StructModel.Go

theorem BaseKind.ofIdent?_eq_some_iff {n : String} {kind : BaseKind} :
    BaseKind.ofIdent? n = some kind ↔ (n, kind) ∈ BaseKind.table := by
  constructor
  · intro h
    obtain ⟨before, after, htable, -⟩ := List.lookup_eq_some_iff.mp h
    rw [htable]
    exact List.mem_append_right before List.mem_cons_self
  · intro h
    have hall : ∀ p ∈ BaseKind.table, BaseKind.ofIdent? p.1 = some p.2 := by decide
    exact hall (n, kind) h

/-- Whether a type is one of the identifiers of a byte. -/
def Go.TypeExpr.isByteName : TypeExpr → Bool
  | .name n => n == "byte" || n == "uint8"
  | _ => false

theorem Go.TypeExpr.isByteName_iff {t : TypeExpr} :
    t.isByteName = true ↔ ∃ n, t = .name n ∧ (n = "byte" ∨ n = "uint8") := by
  cases t <;> simp [isByteName]

/-- What a layer makes of the element inside it. -/
def Go.Layer.wrap : Layer → Element → Element
  | .pointer => .optional
  | .row => .sequence

/-- An element inside layers, the outermost of them first. -/
def wrapAll (ls : List Layer) (e : Element) : Element := ls.foldr Layer.wrap e

/-- An element inside the layers around a core. The innermost row of bytes is one element with the
byte in it. -/
def wrapCore (ls : List Layer) (core : TypeExpr) (e : Element) : Element :=
  if ls.getLast? = some .row ∧ core.isByteName = true then wrapAll ls.dropLast (.base .bytes)
  else wrapAll ls e

section Wrap

variable {ls : List Layer} {core : TypeExpr} {e : Element}

@[simp] theorem wrapCore_nil : wrapCore [] core e = e := by
  simp [wrapCore, wrapAll]

theorem wrapCore_byte (h : core.isByteName = true) : wrapCore [.row] core e = .base .bytes := by
  simp [wrapCore, wrapAll, h]

/-- A layer that is no row of bytes comes around the others. -/
theorem wrapCore_cons {l : Layer} (h : l = .row → ls = [] → core.isByteName = false) :
    wrapCore (l :: ls) core e = l.wrap (wrapCore ls core e) := by
  cases ls with
  | nil =>
      have hno : ¬ ([l].getLast? = some .row ∧ core.isByteName = true) := by
        rintro ⟨hl, hbyte⟩
        rw [h (Option.some.inj hl) rfl] at hbyte
        cases hbyte
      rw [wrapCore, if_neg hno, wrapCore_nil]
      rfl
  | cons m ms =>
      simp only [wrapCore, List.getLast?_cons_cons, List.dropLast_cons_cons]
      split <;> rfl

end Wrap

namespace Extract

open Extractor

/-- The types without layers that have an element. -/
inductive IsSupported : TypeExpr → Prop
  | name {n : String} (h : n ≠ "any") : IsSupported (.name n)
  | struct (ds : List FieldDecl) : IsSupported (.struct ds)
  | strings : IsSupported (.map (.name "string") (.name "string"))
  | dynamic {v : TypeExpr} (h : v.unparen = .name "any" ∨ v.unparen = .interface 0) :
      IsSupported (.map (.name "string") v)

/-- How a supported type without layers comes out in a scope, and the scope that it leaves. -/
inductive CoreRun (o : Options) (s : Scope) : TypeExpr → Except Clash Element → Scope → Prop
  | base {n : String} {kind : BaseKind} (h : (n, kind) ∈ BaseKind.table) :
      CoreRun o s (.name n) (.ok (.base kind)) s
  | deferred {n : String} (hbase : ∀ kind, (n, kind) ∉ BaseKind.table) (hany : n ≠ "any") :
      CoreRun o s (.name n) (.ok (.deferred n)) s
  | strings : CoreRun o s (.map (.name "string") (.name "string")) (.ok (.base .mapStrStr)) s
  | dynamic {v : TypeExpr} (h : v.unparen = .name "any" ∨ v.unparen = .interface 0) :
      CoreRun o s (.map (.name "string") v) (.ok (.base .mapStrIntf)) s
  | struct {ds : List FieldDecl} {fields : List Field} {s' : Scope}
      (h : extractFields o ds s = (.ok fields, s')) :
      CoreRun o s (.struct ds) (.ok (.aggregate fields)) s'
  | clash {ds : List FieldDecl} {c : Clash} {s' : Scope}
      (h : extractFields o ds s = (.error c, s')) : CoreRun o s (.struct ds) (.error c) s'

section Layers

variable {o : Options} {t : TypeExpr}

theorem isByte_iff : isByte t = true ↔ t.layers = [] ∧ t.core.isByteName = true := by
  have hname : ∀ n, BaseKind.ofIdent? n = some .uint8 ↔ n = "byte" ∨ n = "uint8" := by
    intro n
    simp [BaseKind.ofIdent?_eq_some_iff, BaseKind.table, or_comm]
  constructor
  · intro h
    unfold isByte at h
    split at h
    · rename_i n hn
      have hlayers := TypeExpr.layers_of_unparen_eq_name hn
      rw [beq_iff_eq, hname] at h
      rw [← TypeExpr.unparen_eq_core hlayers, hn]
      exact ⟨hlayers, by simpa [TypeExpr.isByteName] using h⟩
    · cases h
  · rintro ⟨hlayers, h⟩
    obtain ⟨n, hn, hbyte⟩ := Go.TypeExpr.isByteName_iff.mp h
    unfold isByte
    rw [TypeExpr.unparen_eq_core hlayers, hn]
    simpa [hname] using hbyte

theorem layer_id (x : Builder) : layer (fun e => e) x = x := by
  funext s
  rw [layer, bind_apply]
  rcases x s with ⟨_ | r, s'⟩
  · rfl
  · cases r <;> rfl

theorem layer_layer (form form' : Element → Element) (x : Builder) :
    layer form (layer form' x) = layer (fun e => form (form' e)) x := by
  funext s
  simp only [layer, bind_apply]
  rcases x s with ⟨_ | r, s'⟩
  · rfl
  · cases r <;> rfl

/-- One more layer around a type. -/
private theorem layer_wrap (l : Layer)
    (h : l = .row → isByte t = false)
    (ih : build o t = layer (wrapCore t.layers t.core) (build o t.core)) :
    layer l.wrap (build o t) = layer (wrapCore (l :: t.layers) t.core) (build o t.core) := by
  rw [ih, layer_layer]
  congr 1
  funext e
  refine (wrapCore_cons fun hl hlayers => ?_).symm
  have hbyte := h hl
  rw [← Bool.not_eq_true, isByte_iff, not_and, Bool.not_eq_true] at hbyte
  exact hbyte hlayers

/-- A row of bytes is one element. -/
private theorem layer_byte (h : isByte t = true) :
    (pure (some (.base .bytes)) : Builder) =
      layer (wrapCore (.row :: t.layers) t.core) (build o t.core) := by
  obtain ⟨hlayers, hcore⟩ := isByte_iff.mp h
  have hbyte : build o t.core = pure (some (.base .uint8)) := by
    rw [← TypeExpr.unparen_eq_core hlayers, build_unparen]
    exact build_of_isByte h
  rw [hbyte, hlayers, ← wrapCore_byte hcore]
  rfl

/-- A type is built by building its core. -/
theorem build_core (o : Options) (t : TypeExpr) :
    build o t = layer (wrapCore t.layers t.core) (build o t.core) := by
  induction t with
  | pointer t ih =>
      rw [build]
      exact layer_wrap .pointer (fun hl => nomatch hl) ih
  | slice t ih =>
      rw [build]
      split
      · exact layer_byte ‹_›
      · exact layer_wrap .row (fun _ => Bool.eq_false_iff.mpr ‹_›) ih
  | array t ih =>
      rw [build]
      split
      · exact layer_byte ‹_›
      · exact layer_wrap .row (fun _ => Bool.eq_false_iff.mpr ‹_›) ih
  | paren t ih =>
      rw [build_paren]
      exact ih
  | _ => exact (layer_id _).symm

end Layers

section Core

variable {o : Options}

theorem isDynamic_iff {t : TypeExpr} :
    isDynamic t = true ↔ t.unparen = .name "any" ∨ t.unparen = .interface 0 := by
  unfold isDynamic
  cases t.unparen <;> simp

/-- A map is supported when it has an element. -/
theorem mapElement_eq_none {k v : TypeExpr} (h : ¬ IsSupported (.map k v)) :
    mapElement k v = none := by
  unfold mapElement
  split
  · rename_i hk
    rw [isString_iff.mp hk] at h
    split
    · rename_i hv
      rw [isString_iff.mp hv] at h
      exact absurd IsSupported.strings h
    · split
      · exact absurd (IsSupported.dynamic (isDynamic_iff.mp ‹_›)) h
      · rfl
  · rfl

theorem mapElement_dynamic {v : TypeExpr} (h : v.unparen = .name "any" ∨ v.unparen = .interface 0) :
    mapElement (.name "string") v = some (.base .mapStrIntf) := by
  have hv : isString v = false := by
    rw [← Bool.not_eq_true, isString_iff]
    rintro rfl
    simp [TypeExpr.unparen] at h
  have hkey : isString (.name "string") = true := rfl
  rw [mapElement, if_pos hkey, hv, isDynamic_iff.mpr h]
  rfl

/-- No other type without layers has an element. -/
theorem build_of_not_isSupported {t : TypeExpr} (h : ¬ IsSupported t.core) :
    build o t.core = pure none := by
  induction t with
  | name n =>
      have hany : n = "any" := Decidable.byContradiction fun hne => h (IsSupported.name hne)
      rw [hany]
      rfl
  | pointer t ih => exact ih h
  | slice t ih => exact ih h
  | array t ih => exact ih h
  | paren t ih => exact ih h
  | map k v =>
      have hcore : (TypeExpr.map k v).core = .map k v := rfl
      rw [hcore] at h ⊢
      rw [build, mapElement_eq_none h]
  | struct ds => exact absurd (IsSupported.struct ds) h
  | interface members => rfl
  | other form => rfl

theorem exists_coreRun {core : TypeExpr} (h : IsSupported core) (s : Scope) :
    ∃ r s', CoreRun o s core r s' ∧ build o core s = (r.map some, s') := by
  cases h with
  | @name n hany =>
      rw [build, namedElement]
      cases hbase : BaseKind.ofIdent? n with
      | some kind =>
          exact ⟨_, s, CoreRun.base (BaseKind.ofIdent?_eq_some_iff.mp hbase), rfl⟩
      | none =>
          refine ⟨_, s, CoreRun.deferred (fun kind hmem => ?_) hany, by rw [if_neg hany]; rfl⟩
          rw [BaseKind.ofIdent?_eq_some_iff.mpr hmem] at hbase
          cases hbase
  | struct ds =>
      rw [build_struct, bind_apply]
      rcases hrun : extractFields o ds s with ⟨c | fields, s'⟩
      · exact ⟨_, s', CoreRun.clash hrun, rfl⟩
      · exact ⟨_, s', CoreRun.struct hrun, rfl⟩
  | strings => exact ⟨_, s, CoreRun.strings, rfl⟩
  | dynamic hv =>
      rw [build, mapElement_dynamic hv]
      exact ⟨_, s, CoreRun.dynamic hv, rfl⟩

/-- A supported type comes out as its core does, with the layers around the element. -/
theorem exists_build {t : TypeExpr} (h : IsSupported t.core) (s : Scope) :
    ∃ r s', CoreRun o s t.core r s' ∧
      build o t s = (r.map fun e => some (wrapCore t.layers t.core e), s') := by
  obtain ⟨r, s', hrun, hcore⟩ := exists_coreRun (o := o) h s
  refine ⟨r, s', hrun, ?_⟩
  rw [build_core, layer, bind_apply, hcore]
  cases r <;> rfl

/-- Without an element a type is not supported. -/
theorem not_isSupported_of_build {t : TypeExpr} {s : Scope} (h : (build o t s).1 = .ok none) :
    ¬ IsSupported t.core := by
  intro hsupported
  obtain ⟨r, s', -, hbuild⟩ := exists_build (o := o) hsupported s
  rw [hbuild] at h
  cases r <;> cases h

theorem CoreRun.error_iff {core : TypeExpr} {r : Except Clash Element} {c : Clash}
    {s s' s'' : Scope} (h : CoreRun o s core r s') :
    (r, s') = (.error c, s'') ↔
      ∃ ds, core = .struct ds ∧ extractFields o ds s = (.error c, s'') := by
  cases h with
  | @struct ds fields s' hrun =>
      refine iff_of_false (fun h => nomatch h) ?_
      rintro ⟨ds, hds, hclash⟩
      cases hds
      rw [hrun] at hclash
      cases hclash
  | @clash ds c' s' hrun =>
      constructor
      · intro h
        cases h
        exact ⟨ds, rfl, hrun⟩
      · rintro ⟨ds, hds, hclash⟩
        cases hds
        rw [hrun] at hclash
        cases hclash
        rfl
  | _ =>
      refine iff_of_false (fun h => nomatch h) ?_
      rintro ⟨ds, hds, -⟩
      cases hds

theorem isSupported_map_iff {k v : TypeExpr} :
    IsSupported (.map k v) ↔ (mapElement k v).isSome = true := by
  constructor
  · intro h
    cases h with
    | strings => rfl
    | dynamic hv =>
        rw [mapElement_dynamic hv]
        rfl
  · intro h
    by_contra hno
    rw [mapElement_eq_none hno] at h
    cases h

instance : DecidablePred IsSupported
  | .name n => decidable_of_iff (n ≠ "any") ⟨.name, fun h => by cases h; assumption⟩
  | .struct ds => isTrue (.struct ds)
  | .map _ _ => decidable_of_iff _ isSupported_map_iff.symm
  | .pointer _ | .slice _ | .array _ | .paren _ | .interface _ | .other _ =>
    isFalse fun h => nomatch h

theorem isSome_of_build_eq_ok {t : TypeExpr} {r : Option Element}
    (h : (build o t).result = .ok r) : r.isSome = decide (IsSupported t.core) := by
  by_cases hsupported : IsSupported t.core
  · cases r with
    | none => exact absurd hsupported (not_isSupported_of_build h)
    | some e => simp [hsupported]
  · rw [build_core, build_of_not_isSupported hsupported] at h
    cases h
    simp [hsupported]

/-- A type fails when its core is a struct that fails. -/
theorem result_build_eq_error_iff {t : TypeExpr} {c : Clash} :
    (build o t).result = .error c ↔
      ∃ ds, t.core = .struct ds ∧ (extractFields o ds).result = .error c := by
  by_cases hsupported : IsSupported t.core
  · obtain ⟨r, s', hrun, hbuild⟩ := exists_build (o := o) hsupported {}
    have hresult : (build o t).result = .error c ↔ r = .error c := by
      rw [result, hbuild, map_eq_error_iff]
    rw [hresult]
    constructor
    · rintro rfl
      obtain ⟨ds, hds, hclash⟩ := hrun.error_iff.mp rfl
      exact ⟨ds, hds, congrArg Prod.fst hclash⟩
    · rintro ⟨ds, hds, hclash⟩
      have hrun' : extractFields o ds {} = (.error c, (extractFields o ds {}).2) :=
        Prod.ext hclash rfl
      exact congrArg Prod.fst (hrun.error_iff.mpr ⟨ds, hds, hrun'⟩)
  · rw [build_core, build_of_not_isSupported hsupported]
    constructor
    · intro h
      cases h
    · rintro ⟨ds, hds, -⟩
      exact absurd (hds ▸ IsSupported.struct ds) hsupported

end Core

/-- A row of structs whose fields have the same key. -/
def clashingType : TypeExpr :=
  .slice (.paren (.struct [⟨.named "A" [], .name "int", "int", none, 4⟩,
    ⟨.named "B" [], .name "int", "int", some "`msg:\"A\"`", 5⟩]))

end Extract

end StructModel
