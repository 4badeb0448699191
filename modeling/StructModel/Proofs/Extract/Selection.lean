import StructModel.Proofs.Extract.Declarations

/-!
# Declarations of some names

What a file comes to is told from the specifications of its types, in whichever groups they stand.
Without those of some names it comes to the same without the models and diagnostics of these names.
-/

namespace StructModel

open StructModel.Go StructModel.Extract

namespace SourceFile

/-- The specifications of types at the top level, alone or in groups. -/
def specs (f : SourceFile) : List TypeSpec := f.items.flatMap typeSpecs

/-- The file with the given specifications in one group and with nothing else. -/
def ofSpecs (name : String) (ss : List TypeSpec) : SourceFile := ⟨name, "", [.types ss]⟩

@[simp] theorem name_ofSpecs (name : String) (ss : List TypeSpec) :
    (ofSpecs name ss).name = name := rfl

@[simp] theorem specs_ofSpecs (name : String) (ss : List TypeSpec) :
    (ofSpecs name ss).specs = ss :=
  List.append_nil ss

end SourceFile

namespace Extract

variable {o : Options}

theorem selectedSpecs_eq (f : SourceFile) :
    selectedSpecs o f.items =
      f.specs.filter fun s => (aggregateOfSpec? s).isSome && isSelected o s.name := rfl

theorem name_of_aggregateOfSpec? {s : TypeSpec} {d : AggregateDecl}
    (h : aggregateOfSpec? s = some d) : d.name = s.name := by
  unfold aggregateOfSpec? at h
  split at h
  · cases h
    rfl
  · cases h

/-- The part of an extraction that is on declarations of some names. -/
def Extraction.restrict (p : String → Bool) (x : Extraction) : Extraction where
  models := x.models.filter fun m => p m.name
  diagnostics := x.diagnostics.filter fun d => d.declaration.any p

/-- All that an extraction gives is on the declaration of a name. -/
structure Extraction.IsOf (name : String) (x : Extraction) : Prop where
  models : ∀ m ∈ x.models, m.name = name
  diagnostics : ∀ d ∈ x.diagnostics, d.declaration = some name

variable {file : String} {p : String → Bool}

theorem Extraction.restrict_append (x y : Extraction) :
    (x.append y).restrict p = (x.restrict p).append (y.restrict p) := by
  simp only [restrict, append, List.filter_append]

theorem Extraction.IsOf.restrict_eq {name : String} {x : Extraction} (h : x.IsOf name) :
    x.restrict p = if p name then x else ⟨[], []⟩ := by
  have hmodels : x.models.filter (fun m => p m.name) = x.models.filter fun _ => p name :=
    List.filter_congr fun m hm => by rw [h.models m hm]
  have hdiagnostics : x.diagnostics.filter (fun d => d.declaration.any p) =
      x.diagnostics.filter fun _ => p name :=
    List.filter_congr fun d hd => by rw [h.diagnostics d hd, Option.any_some]
  rw [restrict, hmodels, hdiagnostics]
  cases p name with
  | true =>
      rw [List.filter_eq_self.mpr fun _ _ => rfl, List.filter_eq_self.mpr fun _ _ => rfl,
        if_pos rfl]
  | false => simp

theorem isOf_extractDecl {d : AggregateDecl} {x : Extraction} (h : extractDecl o file d = .ok x) :
    x.IsOf d.name := by
  rw [extractDecl_eq] at h
  split at h
  · cases h
  · rename_i fields _
    cases h
    constructor
    · intro m hm
      have hm : modelOf d fields = some m := Option.mem_toList.mp hm
      unfold modelOf at hm
      split at hm
      · cases hm
      · cases hm
        rfl
    · intro e he
      rcases List.mem_append.mp he with he | he
      · obtain ⟨n, -, rfl⟩ := List.mem_map.mp he
        rfl
      · cases List.mem_singleton.mp he
        rfl

/-- The name of the file shows in errors alone. -/
theorem extractDecl_rename {d : AggregateDecl} {x : Extraction}
    (h : extractDecl o file d = .ok x) (name : String) : extractDecl o name d = .ok x := by
  rw [extractDecl_eq] at h ⊢
  split at h
  · cases h
  · exact h

/-- Each diagnostic comes from a declaration. -/
theorem exists_decl_of_mem_diagnostics {ds : List AggregateDecl} {x : Extraction}
    (h : extractDecls o file ds = .ok x) {e : Diagnostic} (he : e ∈ x.diagnostics) :
    ∃ d ∈ ds, e.declaration = some d.name := by
  induction ds generalizing x with
  | nil =>
      cases h
      cases he
  | cons d ds ih =>
      obtain ⟨y, z, hy, hz, rfl⟩ := extractDecls_cons_eq_ok h
      rcases List.mem_append.mp he with he | he
      · exact ⟨d, List.mem_cons_self, (isOf_extractDecl hy).diagnostics e he⟩
      · obtain ⟨c, hc, hname⟩ := ih hz he
        exact ⟨c, List.mem_cons_of_mem d hc, hname⟩

theorem extractDecls_filter {ds : List AggregateDecl} {x : Extraction}
    (h : extractDecls o file ds = .ok x) (name : String) :
    extractDecls o name (ds.filter fun d => p d.name) = .ok (x.restrict p) := by
  induction ds generalizing x with
  | nil =>
      cases h
      rfl
  | cons d ds ih =>
      obtain ⟨y, z, hy, hz, rfl⟩ := extractDecls_cons_eq_ok h
      rw [Extraction.restrict_append, (isOf_extractDecl hy).restrict_eq]
      cases hp : p d.name with
      | true =>
          rw [List.filter_cons_of_pos (by exact hp), extractDecls_cons, extractDecl_rename hy,
            ih hz]
          rfl
      | false =>
          rw [List.filter_cons_of_neg (by simp [hp]), ih hz]
          rfl

theorem selectedSpecs_filter (f : SourceFile) (name : String) :
    selectedSpecs o (SourceFile.ofSpecs name (f.specs.filter fun s => p s.name)).items =
      (selectedSpecs o f.items).filter fun s => p s.name := by
  rw [selectedSpecs_eq, selectedSpecs_eq, SourceFile.specs_ofSpecs, List.filter_filter,
    List.filter_filter]
  exact List.filter_congr fun s _ => Bool.and_comm _ _

theorem filterMap_filter_name (ss : List TypeSpec) :
    (ss.filter fun s => p s.name).filterMap aggregateOfSpec? =
      (ss.filterMap aggregateOfSpec?).filter fun d => p d.name := by
  rw [List.filterMap_filter, List.filter_filterMap]
  congr 1
  funext s
  cases hs : aggregateOfSpec? s with
  | none => simp
  | some d => simp [Option.filter_some, name_of_aggregateOfSpec? hs]

theorem aggregateDecls_filter (f : SourceFile) (name : String) :
    aggregateDecls o (SourceFile.ofSpecs name (f.specs.filter fun s => p s.name)).items =
      (aggregateDecls o f.items).filter fun d => p d.name := by
  rw [aggregateDecls, aggregateDecls, selectedSpecs_filter, ← filterMap_filter_name,
    List.filter_filter, List.filter_filter]
  refine congrArg _ (List.filter_congr fun s _ => ?_)
  exact Bool.and_comm _ _

theorem genericWarnings_filter (f : SourceFile) (name : String) :
    genericWarnings o (SourceFile.ofSpecs name (f.specs.filter fun s => p s.name)).items =
      (genericWarnings o f.items).filter fun d => d.declaration.any p := by
  rw [genericWarnings, genericWarnings, selectedSpecs_filter, List.filter_map, List.filter_filter,
    List.filter_filter]
  refine congrArg (List.map _) (List.filter_congr fun s _ => ?_)
  exact Bool.and_comm _ _

/-- Without the specifications of some names a file comes to what it comes to with them, restricted
to the other names. -/
theorem extract_restrict {f : SourceFile} {x : Extraction} (h : extract o f = .ok x)
    (name : String) :
    extract o (.ofSpecs name (f.specs.filter fun s => p s.name)) = .ok (x.restrict p) := by
  obtain ⟨y, hy, rfl⟩ := extract_eq_ok h
  rw [extract_eq, aggregateDecls_filter, genericWarnings_filter, SourceFile.name_ofSpecs,
    extractDecls_filter hy]
  exact congrArg Except.ok (Extraction.restrict_append ⟨[], genericWarnings o f.items⟩ y).symm

/-- An exported struct type. -/
def pointSpec : TypeSpec :=
  ⟨"Point", 4, false, false, .struct [⟨.named "X" ["Y"], .name "int", "int", none, 4⟩], ""⟩

/-- A struct type that is not exported, with a field of an unsupported type. -/
def cellSpec : TypeSpec :=
  ⟨"cell", 5, false, false, .struct [⟨.named "fn" [], .other .function, "func()", none, 6⟩,
    ⟨.named "v" [], .slice (.name "byte"), "[]byte", none, 7⟩], ""⟩

/-- A struct type with a type parameter. -/
def boxSpec : TypeSpec :=
  ⟨"Box", 10, false, true, .struct [⟨.named "V" [], .name "T", "T", none, 10⟩], ""⟩

/-- A file with two of them in one group. -/
def mixedFile : SourceFile where
  name := "mixed.go"
  text := ""
  items := [.package, .types [pointSpec, cellSpec], .function "New", .types [boxSpec]]

end Extract

end StructModel
