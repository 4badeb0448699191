import StructModel.Extract.Declarations
import StructModel.Proofs.Go.Outline
import StructModel.Proofs.Go.Soundness

/-!
# Names of the top level

The skeleton of a tree tells which names are declared at its top level: those of functions, methods,
types, constants and variables, alone or in a group, each specification with all of its names. A
file passes the gate when one of them is exported. What is declared deeper has no part in this, and
neither have imports, parameters and fields.
-/

namespace StructModel.Go

open StructModel.Grammar

/-- A name of a specification is an identifier at its head or behind a comma. -/
def IsNameIn (parts : List TokenTree) (name : String) : Prop :=
  ∃ (before after : List TokenTree) (w : Word), parts = before ++ .leaf w :: after ∧
    w.token = .identifier ∧ w.lexeme.text = name ∧
    (before = [] ∨ ∃ ts c, before = ts ++ [.leaf c] ∧ c.token = .op .comma)

/-- A node of the top level declares a name. -/
inductive Declares : TokenTree → String → Prop
  | function {f w : Word} {rest : List TokenTree} (hf : f.token = .word .kwFunc)
      (hw : w.token = .identifier) :
      Declares (.node .functionDeclaration (.leaf f :: .leaf w :: rest)) w.lexeme.text
  | method {f w : Word} {receiver rest : List TokenTree} (hf : f.token = .word .kwFunc)
      (hw : w.token = .identifier) :
      Declares (.node .methodDeclaration
        (.leaf f :: .node .parameterList receiver :: .leaf w :: rest)) w.lexeme.text
  | type {parts rest : List TokenTree} {r : Rule} {w : Word} (hr : r = .typeSpec ∨ r = .typeAlias)
      (hw : w.token = .identifier) (hspec : .node r (.leaf w :: rest) ∈ parts) :
      Declares (.node .typeDeclaration parts) w.lexeme.text
  | constant {parts spec : List TokenTree} {name : String} (hspec : .node .constSpec spec ∈ parts)
      (hname : IsNameIn spec name) : Declares (.node .constDeclaration parts) name
  | singleVariable {parts spec : List TokenTree} {name : String}
      (hspec : .node .varSpec spec ∈ parts) (hname : IsNameIn spec name) :
      Declares (.node .varDeclaration parts) name
  | groupedVariable {parts specs spec : List TokenTree} {name : String}
      (hgroup : .node .varSpecList specs ∈ parts) (hspec : .node .varSpec spec ∈ specs)
      (hname : IsNameIn spec name) : Declares (.node .varDeclaration parts) name

/-- A tree declares a name at its top level that begins with an uppercase letter. -/
def DeclaresExported (t : SyntaxTree) : Prop :=
  ∃ i ∈ skeletonItems t, ∃ name, Declares i name ∧
    ∃ c, name.toList.head? = some c ∧ Text.isUppercase c = true

section Specifications

/-- The names of a specification with the commas between them, and behind them no comma. -/
inductive HasNames : List TokenTree → List String → Prop
  | last {w : Word} {rest : List TokenTree} (hw : w.token = .identifier)
      (hrest : ∀ c, .leaf c ∈ rest → c.token ≠ .op .comma) :
      HasNames (.leaf w :: rest) [w.lexeme.text]
  | more {w c : Word} {rest : List TokenTree} {names : List String} (hw : w.token = .identifier)
      (hc : c.token = .op .comma) (h : HasNames rest names) :
      HasNames (.leaf w :: .leaf c :: rest) (w.lexeme.text :: names)

variable {parts : List TokenTree} {names : List String}

theorem HasNames.leadingNames_eq (h : HasNames parts names) :
    leadingNames (parts.map ofSkeleton) = names := by
  induction h with
  | @last w rest hw hrest =>
      match rest with
      | [] => rfl
      | .node r cs :: rest =>
          rw [List.map_cons, List.map_cons, ofSkeleton, ofSkeleton_node]
          simp only [leadingNames, furtherNames]
      | .leaf c :: rest =>
          have hc : c.token ≠ .op .comma := hrest c List.mem_cons_self
          rw [List.map_cons, List.map_cons, ofSkeleton, ofSkeleton]
          simp only [leadingNames, furtherNames, if_neg hc]
  | more hw hc h ih =>
      rw [List.map_cons, List.map_cons, ofSkeleton, ofSkeleton]
      simp only [leadingNames, furtherNames, hc, if_true, ih]

theorem isNameIn_last {w : Word} {rest : List TokenTree} (hw : w.token = .identifier)
    (hrest : ∀ c, .leaf c ∈ rest → c.token ≠ .op .comma) {name : String} :
    IsNameIn (.leaf w :: rest) name ↔ name = w.lexeme.text := by
  constructor
  · rintro ⟨before, after, v, heq, hv, rfl, rfl | ⟨ts, c, rfl, hc⟩⟩
    · cases heq
      rfl
    · cases ts with
      | nil =>
          cases heq
          simp [hw] at hc
      | cons t ts =>
          obtain ⟨-, rfl⟩ := List.cons.inj heq
          exact absurd hc (hrest c (by simp))
  · rintro rfl
    exact ⟨[], rest, w, rfl, hw, rfl, .inl rfl⟩

theorem isNameIn_more {w c : Word} {rest : List TokenTree} (hw : w.token = .identifier)
    (hc : c.token = .op .comma) {name : String} :
    IsNameIn (.leaf w :: .leaf c :: rest) name ↔ name = w.lexeme.text ∨ IsNameIn rest name := by
  constructor
  · rintro ⟨before, after, v, heq, hv, rfl, rfl | ⟨ts, d, rfl, hd⟩⟩
    · cases heq
      exact .inl rfl
    · match ts with
      | [] =>
          cases heq
          simp [hw] at hd
      | [t] =>
          cases heq
          exact .inr ⟨[], after, v, rfl, hv, rfl, .inl rfl⟩
      | t :: u :: ts =>
          obtain ⟨-, heq⟩ := List.cons.inj heq
          obtain ⟨-, rfl⟩ := List.cons.inj heq
          exact .inr ⟨ts ++ [.leaf d], after, v, by simp, hv, rfl, .inr ⟨ts, d, rfl, hd⟩⟩
  · rintro (rfl | ⟨before, after, v, rfl, hv, rfl, hbefore⟩)
    · exact ⟨[], .leaf c :: rest, w, rfl, hw, rfl, .inl rfl⟩
    · refine ⟨.leaf w :: .leaf c :: before, after, v, rfl, hv, rfl, .inr ?_⟩
      rcases hbefore with rfl | ⟨ts, d, rfl, hd⟩
      · exact ⟨[.leaf w], c, rfl, hc⟩
      · exact ⟨.leaf w :: .leaf c :: ts, d, rfl, hd⟩

theorem HasNames.isNameIn_iff (h : HasNames parts names) {name : String} :
    IsNameIn parts name ↔ name ∈ names := by
  induction h with
  | last hw hrest => rw [isNameIn_last hw hrest, List.mem_singleton]
  | more hw hc h ih => rw [isNameIn_more hw hc, ih, List.mem_cons]

/-- The symbols that come behind the names of a specification. -/
def afterNames : List (Grammar.Symbol Token Rule) :=
  [.token .identifier, .token (.op .assign), .rule .expressionList, .rule .simpleType,
    .rule .parenthesizedType, .rule .genericType, .rule .qualifiedType, .rule .pointerType,
    .rule .structType, .rule .interfaceType, .rule .arrayType, .rule .sliceType, .rule .mapType,
    .rule .channelType, .rule .functionType, .rule .negatedType]

/-- Whether a row is that of a specification with a rule for its further names. -/
def isNameRow (more : Rule) : List (Grammar.Symbol Token Rule) → Bool
  | .token .identifier :: .rule r :: rest =>
    (r = more || .rule r ∈ afterNames) && rest.all fun s => s ∈ afterNames
  | .token .identifier :: rest => rest.all fun s => s ∈ afterNames
  | _ => false

theorem isNameRow_constSpec :
    ∀ row ∈ grammar.rows .constSpec, isNameRow .moreIdentifiers row = true := by
  decide

theorem isNameRow_varSpec : ∀ row ∈ grammar.rows .varSpec, isNameRow .moreNames row = true := by
  decide

/-- Further names with commas before them. -/
theorem exists_hasNames_of_replicate {n : Nat} {rest : List (Grammar.Symbol Token Rule)}
    (hrest : ∀ s ∈ rest, s ∈ afterNames)
    (h : Derives grammar Word.token
      (.token .identifier ::
        ((List.replicate n [.token (.op .comma), .token .identifier]).flatten ++ rest)) parts) :
    ∃ names, HasNames parts names := by
  induction n generalizing parts with
  | zero =>
      obtain ⟨w, ts, rfl, hw, h⟩ := h.exists_leaf
      refine ⟨[w.lexeme.text], HasNames.last hw fun c hc => ?_⟩
      intro hcomma
      have hmem := h.token_mem afterNames (by decide) hrest hc
      rw [hcomma] at hmem
      revert hmem
      decide
  | succ n ih =>
      obtain ⟨w, ts, rfl, hw, h⟩ := h.exists_leaf
      obtain ⟨c, ts, rfl, hc, h⟩ := h.exists_leaf
      obtain ⟨names, hnames⟩ := ih h
      exact ⟨w.lexeme.text :: names, HasNames.more hw hc hnames⟩

/-- A specification with a rule for its further names has names at its head. -/
theorem exists_hasNames (r more : Rule) (hmore : grammar.hidden more = true)
    (hrepeat : ∀ row ∈ grammar.rows more, row = [.token (.op .comma), .token .identifier] ∨
      row = [.rule more, .token (.op .comma), .token .identifier])
    (hrows : ∀ row ∈ grammar.rows r, isNameRow more row = true)
    (h : IsTreeOf grammar Word.token (.node r parts)) : ∃ names, HasNames parts names := by
  obtain ⟨row, hrow, h⟩ := h
  have hshape := hrows row hrow
  unfold isNameRow at hshape
  split at hshape
  · rename_i q rest
    simp only [Bool.and_eq_true, Bool.or_eq_true, decide_eq_true_eq, List.all_eq_true] at hshape
    obtain ⟨rfl | hq, hrest⟩ := hshape
    · obtain ⟨w, ts, rfl, hw, h⟩ := h.exists_leaf
      obtain ⟨n, h⟩ := h.exists_replicate hmore hrepeat
      exact exists_hasNames_of_replicate hrest (.token hw h)
    · exact exists_hasNames_of_replicate (n := 0) (List.forall_mem_cons.mpr ⟨hq, hrest⟩) h
  · simp only [List.all_eq_true, decide_eq_true_eq] at hshape
    exact exists_hasNames_of_replicate (n := 0) hshape h
  · cases hshape

theorem isNameIn_iff_mem_leadingNames (h : ∃ names, HasNames parts names) {name : String} :
    IsNameIn parts name ↔ name ∈ leadingNames (parts.map ofSkeleton) := by
  obtain ⟨names, h⟩ := h
  rw [h.isNameIn_iff, h.leadingNames_eq]

theorem isNameIn_constSpec (h : IsTreeOf grammar Word.token (.node .constSpec parts))
    {name : String} : IsNameIn parts name ↔ name ∈ leadingNames (parts.map ofSkeleton) :=
  isNameIn_iff_mem_leadingNames
    (exists_hasNames .constSpec .moreIdentifiers rfl (by decide) isNameRow_constSpec h)

theorem isNameIn_varSpec (h : IsTreeOf grammar Word.token (.node .varSpec parts))
    {name : String} : IsNameIn parts name ↔ name ∈ leadingNames (parts.map ofSkeleton) :=
  isNameIn_iff_mem_leadingNames
    (exists_hasNames .varSpec .moreNames rfl (by decide) isNameRow_varSpec h)

end Specifications

section TopLevel

/-- The tokens that a declaration of a function or of a method begins with. -/
theorem rows_functionDeclaration : ∀ row ∈ grammar.rows .functionDeclaration,
    row.take 2 = [.token (.word .kwFunc), .token .identifier] := by
  decide

theorem rows_methodDeclaration : ∀ row ∈ grammar.rows .methodDeclaration,
    row.take 3 = [.token (.word .kwFunc), .rule .parameterList, .token .identifier] := by
  decide

theorem rows_typeSpec {r : Rule} (hr : r = .typeSpec ∨ r = .typeAlias) :
    ∀ row ∈ grammar.rows r, row.take 1 = [.token .identifier] := by
  rcases hr with rfl | rfl <;> decide

theorem function_parts {parts : List TokenTree}
    (h : IsTreeOf grammar Word.token (.node .functionDeclaration parts)) :
    ∃ f w rest, parts = .leaf f :: .leaf w :: rest ∧ f.token = .word .kwFunc ∧
      w.token = .identifier := by
  obtain ⟨row, hrow, h⟩ := h
  rw [← List.take_append_drop 2 row, rows_functionDeclaration row hrow] at h
  obtain ⟨f, ts, rfl, hf, h⟩ := h.exists_leaf
  obtain ⟨w, rest, rfl, hw, -⟩ := h.exists_leaf
  exact ⟨f, w, rest, rfl, hf, hw⟩

theorem method_parts {parts : List TokenTree}
    (h : IsTreeOf grammar Word.token (.node .methodDeclaration parts)) :
    ∃ f receiver w rest, parts = .leaf f :: .node .parameterList receiver :: .leaf w :: rest ∧
      f.token = .word .kwFunc ∧ w.token = .identifier := by
  obtain ⟨row, hrow, h⟩ := h
  rw [← List.take_append_drop 3 row, rows_methodDeclaration row hrow] at h
  obtain ⟨f, ts, rfl, hf, h⟩ := h.exists_leaf
  obtain ⟨receiver, us, rfl, hus⟩ := h.exists_node rfl
  obtain ⟨w, rest, rfl, hw, -⟩ := hus.exists_leaf
  exact ⟨f, receiver, w, rest, rfl, hf, hw⟩

theorem typeSpec_parts {r : Rule} (hr : r = .typeSpec ∨ r = .typeAlias) {parts : List TokenTree}
    (h : IsTreeOf grammar Word.token (.node r parts)) :
    ∃ w rest, parts = .leaf w :: rest ∧ w.token = .identifier := by
  obtain ⟨row, hrow, h⟩ := h
  rw [← List.take_append_drop 1 row, rows_typeSpec hr row hrow] at h
  obtain ⟨w, rest, rfl, hw, -⟩ := h.exists_leaf
  exact ⟨w, rest, rfl, hw⟩

/-- The specification of a type has the name that it begins with. -/
theorem exists_typeSpec {r : Rule} (hr : r = .typeSpec ∨ r = .typeAlias) {w : Word}
    (hw : w.token = .identifier) (rest : List TokenTree) :
    ∃ s, typeSpecOfTree (ofSkeleton (.node r (.leaf w :: rest))) = some s ∧
      s.name = w.lexeme.text := by
  have hname : declaredName? ((.leaf w :: rest).map ofSkeleton) = some w.lexeme.text := by
    rw [declaredName?, List.map_cons, List.findSome?_cons, ofSkeleton, hw, identifier?]
  have htype : (typeChild? (partsOfTrees ((.leaf w :: rest).map ofSkeleton))).isSome = true := by
    rw [List.map_cons, ofSkeleton, hw, partsOfTrees, typeChild?]
    split <;> rfl
  obtain ⟨p, hp⟩ := Option.isSome_iff_exists.mp htype
  rw [ofSkeleton_node]
  rcases hr with rfl | rfl
  · exact ⟨_, by rw [typeSpecOfTree, typeSpecOfNode, hname, hp], rfl⟩
  · exact ⟨_, by rw [typeSpecOfTree, typeSpecOfNode, hname, hp], rfl⟩

theorem rule_of_typeSpecOfTree {t : TokenTree} {s : TypeSpec}
    (h : typeSpecOfTree (ofSkeleton t) = some s) :
    ∃ r parts, t = .node r parts ∧ (r = .typeSpec ∨ r = .typeAlias) := by
  cases t with
  | leaf w => cases h
  | node r parts =>
      rw [ofSkeleton_node] at h
      cases r with
      | typeSpec => exact ⟨_, parts, rfl, .inl rfl⟩
      | typeAlias => exact ⟨_, parts, rfl, .inr rfl⟩
      | _ => cases h

theorem namesOfSpec_ofSkeleton_eq_some_iff {r : Rule} {t : TokenTree} {names : List String} :
    namesOfSpec r (ofSkeleton t) = some names ↔
      ∃ spec, t = .node r spec ∧ leadingNames (spec.map ofSkeleton) = names := by
  cases t with
  | leaf w => simp [ofSkeleton, namesOfSpec]
  | node q parts => by_cases hq : q = r <;> simp [ofSkeleton_node, namesOfSpec, hq]

theorem mem_filterMap_namesOfSpec_iff {r : Rule} {parts : List TokenTree} {names : List String} :
    names ∈ (parts.map ofSkeleton).filterMap (namesOfSpec r) ↔
      ∃ spec, .node r spec ∈ parts ∧ leadingNames (spec.map ofSkeleton) = names := by
  simp only [List.filterMap_map, List.mem_filterMap, Function.comp_apply,
    namesOfSpec_ofSkeleton_eq_some_iff]
  constructor
  · rintro ⟨t, ht, spec, rfl, hnames⟩
    exact ⟨spec, ht, hnames⟩
  · rintro ⟨spec, hspec, hnames⟩
    exact ⟨_, hspec, spec, rfl, hnames⟩

/-- The specifications of a declaration of variables stand in it or in a group in it. -/
theorem mem_variableSpecs_iff {parts : List TokenTree} {names : List String} :
    names ∈ variableSpecs (parts.map ofSkeleton) ↔
      ∃ spec, (.node .varSpec spec ∈ parts ∨
        ∃ specs, .node .varSpecList specs ∈ parts ∧ .node .varSpec spec ∈ specs) ∧
        leadingNames (spec.map ofSkeleton) = names := by
  induction parts with
  | nil => simp [variableSpecs]
  | cons t ts ih =>
      by_cases ht : ∃ specs, t = .node .varSpecList specs
      · obtain ⟨specs, rfl⟩ := ht
        have hspecs := @mem_filterMap_namesOfSpec_iff .varSpec specs names
        rw [List.map_cons, ofSkeleton_node, variableSpecs, List.mem_append, ih]
        unfold variableNames
        rw [hspecs]
        grind
      · have hcons : ∀ specs, ofSkeleton t ≠ .node .varSpecList specs := by
          intro specs heq
          cases t with
          | leaf w => cases heq
          | node r cs =>
              rw [ofSkeleton_node] at heq
              cases heq
              exact ht ⟨cs, rfl⟩
        rw [List.map_cons, variableSpecs_cons hcons, List.mem_append, ih, Option.mem_toList,
          variableNames, namesOfSpec_ofSkeleton_eq_some_iff]
        grind

section Forms

variable {parts : List TokenTree} {name : String}

theorem declares_function_iff (h : IsTreeOf grammar Word.token (.node .functionDeclaration parts)) :
    Declares (.node .functionDeclaration parts) name ↔
      declaredName? (parts.map ofSkeleton) = some name := by
  obtain ⟨f, w, rest, rfl, hf, hw⟩ := function_parts h
  have hname : declaredName? ((.leaf f :: .leaf w :: rest).map ofSkeleton) =
      some w.lexeme.text := by
    simp only [declaredName?, List.map_cons, ofSkeleton, hf, hw]
    rfl
  rw [hname, Option.some.injEq]
  constructor
  · rintro ⟨⟩
    rfl
  · rintro rfl
    exact Declares.function hf hw

theorem declares_method_iff (h : IsTreeOf grammar Word.token (.node .methodDeclaration parts)) :
    Declares (.node .methodDeclaration parts) name ↔
      declaredName? (parts.map ofSkeleton) = some name := by
  obtain ⟨f, receiver, w, rest, rfl, hf, hw⟩ := method_parts h
  have hname : declaredName?
      ((.leaf f :: .node .parameterList receiver :: .leaf w :: rest).map ofSkeleton) =
        some w.lexeme.text := by
    simp only [declaredName?, List.map_cons, ofSkeleton, hf, hw]
    rfl
  rw [hname, Option.some.injEq]
  constructor
  · rintro ⟨⟩
    rfl
  · rintro rfl
    exact Declares.method hf hw

theorem declares_types_iff (h : IsTreeOf grammar Word.token (.node .typeDeclaration parts)) :
    Declares (.node .typeDeclaration parts) name ↔
      ∃ s ∈ (parts.map ofSkeleton).filterMap typeSpecOfTree, s.name = name := by
  simp only [List.filterMap_map, List.mem_filterMap, Function.comp_apply]
  constructor
  · intro hdeclares
    cases hdeclares with
    | type hr hw hspec =>
        obtain ⟨s, hs, hname⟩ := exists_typeSpec hr hw _
        exact ⟨s, ⟨_, hspec, hs⟩, hname⟩
  · rintro ⟨s, ⟨t, ht, hs⟩, rfl⟩
    obtain ⟨r, spec, rfl, hr⟩ := rule_of_typeSpecOfTree hs
    obtain ⟨w, rest, rfl, hw⟩ := typeSpec_parts hr (h.children _ ht)
    obtain ⟨s', hs', hname⟩ := exists_typeSpec hr hw rest
    cases hs.symm.trans hs'
    rw [hname]
    exact Declares.type hr hw ht

theorem declares_constants_iff (h : IsTreeOf grammar Word.token (.node .constDeclaration parts)) :
    Declares (.node .constDeclaration parts) name ↔
      ∃ names ∈ (parts.map ofSkeleton).filterMap constantNames, name ∈ names := by
  simp only [constantNames, mem_filterMap_namesOfSpec_iff]
  constructor
  · intro hdeclares
    cases hdeclares with
    | constant hspec hname =>
        exact ⟨_, ⟨_, hspec, rfl⟩, (isNameIn_constSpec (h.children _ hspec)).mp hname⟩
  · rintro ⟨names, ⟨spec, hspec, rfl⟩, hname⟩
    exact Declares.constant hspec ((isNameIn_constSpec (h.children _ hspec)).mpr hname)

theorem declares_variables_iff (h : IsTreeOf grammar Word.token (.node .varDeclaration parts)) :
    Declares (.node .varDeclaration parts) name ↔
      ∃ names ∈ variableSpecs (parts.map ofSkeleton), name ∈ names := by
  simp only [mem_variableSpecs_iff]
  have hgrouped : ∀ {specs spec}, .node .varSpecList specs ∈ parts → .node .varSpec spec ∈ specs →
      IsTreeOf grammar Word.token (.node .varSpec spec) := fun hgroup hspec =>
    (h.children _ hgroup).children _ hspec
  constructor
  · intro hdeclares
    cases hdeclares with
    | singleVariable hspec hname =>
        exact ⟨_, ⟨_, .inl hspec, rfl⟩, (isNameIn_varSpec (h.children _ hspec)).mp hname⟩
    | groupedVariable hgroup hspec hname =>
        exact ⟨_, ⟨_, .inr ⟨_, hgroup, hspec⟩, rfl⟩,
          (isNameIn_varSpec (hgrouped hgroup hspec)).mp hname⟩
  · rintro ⟨names, ⟨spec, hspec | ⟨specs, hgroup, hspec⟩, rfl⟩, hname⟩
    · exact Declares.singleVariable hspec ((isNameIn_varSpec (h.children _ hspec)).mpr hname)
    · exact Declares.groupedVariable hgroup hspec
        ((isNameIn_varSpec (hgrouped hgroup hspec)).mpr hname)

end Forms

/-- What a node of the top level stands for has the names that the node declares. -/
theorem mem_declaredNames_iff {t : TokenTree} (h : IsTreeOf grammar Word.token t) {name : String} :
    (∃ i ∈ topLevelOfTree (ofSkeleton t), name ∈ i.declaredNames) ↔ Declares t name := by
  cases t with
  | leaf w =>
      constructor
      · rintro ⟨i, ⟨⟩, -⟩
      · rintro ⟨⟩
  | node r parts =>
      rw [ofSkeleton_node]
      cases r with
      | functionDeclaration =>
          rw [declares_function_iff h, topLevelOfTree]
          cases declaredName? (parts.map ofSkeleton) <;> simp [TopLevel.declaredNames, eq_comm]
      | methodDeclaration =>
          rw [declares_method_iff h, topLevelOfTree]
          cases declaredName? (parts.map ofSkeleton) <;> simp [TopLevel.declaredNames, eq_comm]
      | typeDeclaration =>
          rw [declares_types_iff h]
          simp [topLevelOfTree, TopLevel.declaredNames]
      | constDeclaration =>
          rw [declares_constants_iff h]
          simp [topLevelOfTree, TopLevel.declaredNames]
      | varDeclaration =>
          rw [declares_variables_iff h]
          simp [topLevelOfTree, TopLevel.declaredNames]
      | _ =>
          constructor
          · rintro ⟨i, ⟨⟩, hname⟩
            cases hname
          · rintro ⟨⟩

end TopLevel

end StructModel.Go

namespace StructModel

open StructModel.Go StructModel.Extract

section Gate

variable {t : SyntaxTree}

theorem Text.isExported_iff {name : String} :
    isExported name = true ↔ ∃ c, name.toList.head? = some c ∧ isUppercase c = true := by
  unfold isExported
  cases name.toList <;> simp

/-- The names of the top level are those that the skeleton declares. -/
theorem hasExports_topLevel_iff (h : IsErrorFree t) :
    hasExports (topLevel t) = true ↔ DeclaresExported t := by
  have hgrammar := h.items
  have hany : ∀ items : List TopLevel, hasExports items =
      (items.map TopLevel.declaredNames).any fun names => names.any Text.isExported := by
    intro items
    rw [List.any_map]
    rfl
  obtain ⟨nodes, hskeleton⟩ := h.exists_skeleton
  have hitems : skeletonItems t = nodes := skeletonItems_eq hskeleton
  have hnames : (topLevel t).map TopLevel.declaredNames =
      ((nodes.map ofSkeleton).filterMap topLevelOfTree).map TopLevel.declaredNames := by
    have hrelocate := congrArg (List.map TopLevel.declaredNames)
      (relocate_topLevel_skeleton hskeleton)
    rw [ofSkeleton_node] at hrelocate
    simpa [topLevel, List.map_map, Function.comp_def] using hrelocate
  rw [hany, hnames, ← hany, hasExports_iff, DeclaresExported, hitems]
  simp only [List.filterMap_map, List.mem_filterMap, Function.comp_apply]
  rw [hitems] at hgrammar
  constructor
  · rintro ⟨i, ⟨u, hu, hi⟩, name, hname, hexported⟩
    exact ⟨u, hu, name, (mem_declaredNames_iff (hgrammar u hu)).mp ⟨i, hi, hname⟩,
      Text.isExported_iff.mp hexported⟩
  · rintro ⟨u, hu, name, hdeclares, hexported⟩
    obtain ⟨i, hi, hname⟩ := (mem_declaredNames_iff (hgrammar u hu)).mpr hdeclares
    exact ⟨i, ⟨u, hu, hi⟩, name, hname, Text.isExported_iff.mpr hexported⟩

theorem ofTree_of_hasExports (text name : String) (h : hasExports (topLevel t) = true) :
    SourceFile.ofTree text name t = .ok ⟨name, text, topLevel t⟩ := by
  simp only [SourceFile.ofTree, h, if_true]

/-- A tree that is refused gives the one error there is. -/
theorem ofTree_eq_error_iff {text name : String} :
    SourceFile.ofTree text name t = .error (.noExports name) ↔ hasExports (topLevel t) = false := by
  cases h : hasExports (topLevel t) <;> simp [SourceFile.ofTree, h]

theorem ofTree_eq_noExports_iff (h : IsErrorFree t) {text name : String} :
    SourceFile.ofTree text name t = .error (.noExports name) ↔ ¬ DeclaresExported t := by
  rw [ofTree_eq_error_iff, ← hasExports_topLevel_iff h, Bool.not_eq_true]

/-- An exported declaration that takes part is one of the names of the top level. -/
theorem hasExports_of_selected {o : Options} (ho : o.exportedOnly = true) {items : List TopLevel}
    {s : TypeSpec} (hs : s ∈ selectedSpecs o items) : hasExports items = true := by
  obtain ⟨hmem, hselected⟩ := List.mem_filter.mp hs
  obtain ⟨i, hi, hspec⟩ := List.mem_flatMap.mp hmem
  have hexported : Text.isExported s.name = true := by
    simpa [isSelected, ho] using (Bool.and_eq_true_iff.mp hselected).2
  refine hasExports_iff.mpr ⟨i, hi, s.name, ?_, hexported⟩
  cases i with
  | types specs => exact List.mem_map_of_mem hspec
  | _ => cases hspec

end Gate

/-- A tree without errors is refused exactly when its top level declares no exported name. So no tree
is refused from which exported declarations, or warnings on generic ones, would be taken; and a text
is refused for want of exported names exactly when it parses to such a tree. -/
theorem noExports_iff_declaresExported :
    (∀ t, IsErrorFree t → ∀ text name,
      (SourceFile.ofTree text name t = .error (.noExports name) ↔ ¬ DeclaresExported t) ∧
      (DeclaresExported t → SourceFile.ofTree text name t = .ok ⟨name, text, topLevel t⟩) ∧
      ∀ o : Options, o.exportedOnly = true →
        aggregateDecls o (topLevel t) ≠ [] ∨ genericWarnings o (topLevel t) ≠ [] →
          SourceFile.ofTree text name t = .ok ⟨name, text, topLevel t⟩) ∧
      ∀ text name, SourceFile.parse text name = .error (.noExports name) ↔
        ∃ t, Go.parse text = .ok t ∧ ¬ DeclaresExported t := by
  constructor
  · intro t ht text name
    refine ⟨ofTree_eq_noExports_iff ht, fun hexported => ?_, fun o ho hsome => ?_⟩
    · exact ofTree_of_hasExports text name ((hasExports_topLevel_iff ht).mpr hexported)
    · apply ofTree_of_hasExports
      rcases hsome with hdecls | hwarnings
      · obtain ⟨d, hd⟩ := List.exists_mem_of_ne_nil _ hdecls
        obtain ⟨s, hs, -⟩ := List.mem_filterMap.mp hd
        exact hasExports_of_selected ho (List.mem_filter.mp hs).1
      · obtain ⟨d, hd⟩ := List.exists_mem_of_ne_nil _ hwarnings
        obtain ⟨s, hs, -⟩ := List.mem_map.mp hd
        exact hasExports_of_selected ho (List.mem_filter.mp hs).1
  · intro text name
    unfold SourceFile.parse
    cases hparse : Go.parse text with
    | error e => simp
    | ok t => simp [ofTree_eq_noExports_iff (isErrorFree_of_parse hparse)]

/-- Variables in a group and a struct type, without an exported name and with one. -/
theorem noExports_iff_declaresExported_groupTree :
    SourceFile.ofTree "" "group.go" (groupTree "b") = .error (.noExports "group.go") ∧
      DeclaresExported (groupTree "B") ∧
      aggregateDecls { exportedOnly := true } (topLevel (groupTree "B")) ≠ [] ∧
      SourceFile.ofTree "" "group.go" (groupTree "B") =
        .ok ⟨"group.go", "", topLevel (groupTree "B")⟩ := by
  have hlower : ¬ DeclaresExported (groupTree "b") := by
    rw [← hasExports_topLevel_iff (isErrorFree_groupTree "b")]
    decide
  have hdecls : aggregateDecls { exportedOnly := true } (topLevel (groupTree "B")) ≠ [] := by
    rw [Ne, ← List.isEmpty_iff]
    decide
  obtain ⟨herror, -, -⟩ := noExports_iff_declaresExported.1 (groupTree "b")
    (isErrorFree_groupTree "b") "" "group.go"
  obtain ⟨-, -, hselected⟩ := noExports_iff_declaresExported.1 (groupTree "B")
    (isErrorFree_groupTree "B") "" "group.go"
  refine ⟨herror.mpr hlower, ?_, hdecls, hselected _ rfl (.inl hdecls)⟩
  exact (hasExports_topLevel_iff (isErrorFree_groupTree "B")).mp (by decide)

end StructModel
