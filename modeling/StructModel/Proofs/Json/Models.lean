import Mathlib.Logic.Function.Defs
import StructModel.Json.Models
import StructModel.Json.Records
import StructModel.Proofs.Json.Text

/-!
# Models, diagnostics and options read back from JSON

What is encoded is decoded as what it was. The members of an object are examined by key, not in the
order in which they were written; each part is found once and none is lacking. Models have no
numbers in them, so their text is read back as well.
-/

namespace StructModel

open StructModel.Json

theorem sorted_string (s : String) : (Json.string s).sorted = .string s := rfl

theorem sorted_single (key : String) (v : Json) :
    (Json.object [⟨key, v⟩]).sorted = .object [⟨key, v.sorted⟩] := rfl

section Elements

theorem BaseKind.ofJson_name (k : BaseKind) : BaseKind.ofJson (.string k.name) = .ok k := by
  simp only [BaseKind.ofJson, asVariant, k.lookup_name]

/-- The members of a field come in the order of their keys, the element first. -/
theorem sorted_field (n k : String) (v : Json) :
    (Json.object
      [⟨"source_name", .string n⟩, ⟨"output_key", .string k⟩, ⟨"element", v⟩]).sorted =
      .object [⟨"element", v.sorted⟩, ⟨"output_key", .string k⟩, ⟨"source_name", .string n⟩] := by
  simp +decide only [Json.sorted, sortedMembers, insertMember, ↓reduceIte]

/-- A field is decoded when its element is. -/
theorem fieldOfSorted_field {e : Element} (n k : String)
    (he : elementOfSorted e.toJson.sorted = .ok e) :
    fieldOfSorted (.object [⟨"element", e.toJson.sorted⟩, ⟨"output_key", .string k⟩,
      ⟨"source_name", .string n⟩]) = .ok ⟨n, k, e⟩ := by
  have hparts : fieldPartsOfMembers {} [⟨"element", e.toJson.sorted⟩, ⟨"output_key", .string k⟩,
      ⟨"source_name", .string n⟩] = .ok ⟨some n, some k, some e⟩ := by
    simp [fieldPartsOfMembers, he, Json.found, Found.asString]
  rw [fieldOfSorted, hparts]
  rfl

mutual

theorem elementOfSorted_toJson : (e : Element) → elementOfSorted e.toJson.sorted = .ok e
  | .base k => by
      rw [Element.toJson, sorted_single, sorted_string, elementOfSorted, k.ofJson_name]
      rfl
  | .sequence e => by
      rw [Element.toJson, sorted_single, elementOfSorted, elementOfSorted_toJson e]
      rfl
  | .optional e => by
      rw [Element.toJson, sorted_single, elementOfSorted, elementOfSorted_toJson e]
      rfl
  | .aggregate fs => by
      rw [Element.toJson, sorted_single, Json.sorted, elementOfSorted, fieldsOfSorted_toJson fs]
      rfl
  | .deferred n => by
      rw [Element.toJson, sorted_single, sorted_string, elementOfSorted]
      rfl

theorem fieldsOfSorted_toJson :
    (fs : List Field) → fieldsOfSorted (sortedItems (fieldsToJson fs)) = .ok fs
  | [] => rfl
  | ⟨n, k, e⟩ :: fs => by
      rw [fieldsToJson, sortedItems, sorted_field, fieldsOfSorted,
        fieldOfSorted_field n k (elementOfSorted_toJson e), fieldsOfSorted_toJson fs]
      rfl

end

mutual

theorem isNumberless_toJson : (e : Element) → e.toJson.isNumberless = true
  | .base _ => rfl
  | .sequence e => by
      simp [Element.toJson, isNumberless, numberlessMembers, isNumberless_toJson e]
  | .optional e => by
      simp [Element.toJson, isNumberless, numberlessMembers, isNumberless_toJson e]
  | .aggregate fs => by
      simp [Element.toJson, isNumberless, numberlessMembers, numberlessItems_toJson fs]
  | .deferred _ => rfl

theorem numberlessItems_toJson : (fs : List Field) → numberlessItems (fieldsToJson fs) = true
  | [] => rfl
  | ⟨_, _, e⟩ :: fs => by
      simp [fieldsToJson, numberlessItems, isNumberless, numberlessMembers, isNumberless_toJson e,
        numberlessItems_toJson fs]

end

end Elements

section Models

theorem TypeModel.ofJson_toJson (m : TypeModel) : TypeModel.ofJson m.toJson = .ok m := by
  have hsorted : m.toJson.sorted =
      .object [⟨"name", .string m.name⟩, ⟨"root", m.root.toJson.sorted⟩] := by
    simp +decide only [TypeModel.toJson, Json.sorted, sortedMembers, insertMember, ↓reduceIte]
  have hparts : TypeModel.partsOfMembers {}
      [⟨"name", .string m.name⟩, ⟨"root", m.root.toJson.sorted⟩] =
        .ok ⟨some m.name, some m.root⟩ := by
    simp [TypeModel.partsOfMembers, elementOfSorted_toJson, Json.found, Found.asString]
  rw [TypeModel.ofJson, hsorted, TypeModel.ofSorted, hparts]
  rfl

/-- A list is decoded when each of its items is. -/
theorem listOfJson_map {α : Type} {decode : Json → Decoded α} {encode : α → Json}
    (h : ∀ a, decode (encode a) = .ok a) (as : List α) :
    listOfJson decode (.array (as.map encode)) = .ok as := by
  have hall : decodeAll decode (as.map encode) = .ok as := by
    induction as with
    | nil => rfl
    | cons a as ih =>
        rw [List.map_cons, decodeAll, h, ih]
        rfl
  exact hall

theorem numberlessItems_models (ms : List TypeModel) :
    numberlessItems (ms.map TypeModel.toJson) = true := by
  induction ms with
  | nil => rfl
  | cons m ms ih =>
      simp [TypeModel.toJson, numberlessItems, isNumberless, numberlessMembers,
        isNumberless_toJson, ih]

/-- The text of a list of models is a document for what they are encoded as. -/
theorem parse_modelsText (ms : List TypeModel) :
    Json.parse (modelsText ms) = some (.array (ms.map TypeModel.toJson)) :=
  parse_pretty (numberlessItems_models ms)

/-- Models with the same text are decoded from the same document. -/
theorem modelsText_injective : Function.Injective modelsText := by
  intro ms ns h
  have hread := parse_modelsText ms
  rw [h, parse_modelsText ns, Option.some.injEq] at hread
  have hdecode := listOfJson_map TypeModel.ofJson_toJson ms
  rw [← hread, listOfJson_map TypeModel.ofJson_toJson ns] at hdecode
  exact (Except.ok.inj hdecode).symm

end Models

section Records

theorem Severity.ofJson_name (s : Severity) : Severity.ofJson (.string s.name) = .ok s := by
  simp only [Severity.ofJson, asVariant, s.lookup_name]

theorem asText?_ofText? (text : Option String) : (ofText? text).sorted.asText? = .ok text := by
  cases text <;> rfl

theorem asNat?_nat (n : Nat) : (Json.nat n).sorted.asNat? = .ok (some n) := by
  have hnat : (Found.integer n).asNat = .ok n := by
    rw [Found.asNat, if_neg (Int.not_lt.mpr (Int.natCast_nonneg n)), Int.toNat_natCast]
  simp only [Json.nat, Json.sorted, asNat?, Json.found, hnat]
  rfl

/-- The members of a diagnostic come in the order of their keys. -/
theorem sorted_diagnostic (severity message declaration field line : Json) :
    (Json.object [⟨"severity", severity⟩, ⟨"message", message⟩, ⟨"declaration", declaration⟩,
      ⟨"field", field⟩, ⟨"line", line⟩]).sorted =
      .object [⟨"declaration", declaration.sorted⟩, ⟨"field", field.sorted⟩,
        ⟨"line", line.sorted⟩, ⟨"message", message.sorted⟩, ⟨"severity", severity.sorted⟩] := by
  simp +decide only [Json.sorted, sortedMembers, insertMember, ↓reduceIte]

/-- A diagnostic is decoded when its line is. -/
theorem Diagnostic.ofJson_object (d : Diagnostic) {line : Json}
    (hline : line.sorted.asNat? = .ok d.line) :
    Diagnostic.ofJson (.object [⟨"severity", .string d.severity.name⟩,
      ⟨"message", .string d.message⟩, ⟨"declaration", ofText? d.declaration⟩,
      ⟨"field", ofText? d.field⟩, ⟨"line", line⟩]) = .ok d := by
  have hparts : Diagnostic.partsOfMembers {}
      [("declaration", (ofText? d.declaration).sorted), ("field", (ofText? d.field).sorted),
        ("line", line.sorted), ("message", .string d.message),
        ("severity", .string d.severity.name)] =
        .ok ⟨some d.severity, some d.message, d.declaration, d.field, d.line⟩ := by
    simp [Diagnostic.partsOfMembers, Diagnostic.Parts.set, asText?_ofText?, hline,
      Severity.ofJson_name, Json.found, Found.asString, Except.map]
  rw [Diagnostic.ofJson, sorted_diagnostic]
  simp only [List.map_cons, List.map_nil, sorted_string, hparts]
  rfl

theorem Diagnostic.ofJson_toJson (d : Diagnostic) : Diagnostic.ofJson d.toJson = .ok d := by
  refine d.ofJson_object ?_
  cases d.line with
  | none => rfl
  | some n => exact asNat?_nat n

theorem DuplicatePolicy.ofJson_name (p : DuplicatePolicy) :
    Options.policyOfJson (.string p.name) = .ok p := by
  simp only [Options.policyOfJson, asVariant, p.lookup_name]

theorem Options.ofJson_toJson (o : Options) : Options.ofJson o.toJson = .ok o := by
  have hsorted : o.toJson.sorted = .object [⟨"duplicate_keys", .string o.duplicateKeys.name⟩,
      ⟨"exported_only", .bool o.exportedOnly⟩, ⟨"tag_key", .string o.tagKey⟩] := by
    simp +decide only [Options.toJson, Json.sorted, sortedMembers, insertMember, ↓reduceIte]
  rw [Options.ofJson, hsorted]
  simp [Options.withMembers, DuplicatePolicy.ofJson_name, Json.found, Found.asString,
    Found.asBool]

end Records

/-- The text of every list of models is a document from which just these models are decoded, so no
two lists have the same text. Every diagnostic and all options are decoded from the values that they
are encoded as. -/
theorem json_round_trip :
    (∀ ms : List TypeModel, ∃ v, Json.parse (modelsText ms) = some v ∧
      listOfJson TypeModel.ofJson v = .ok ms) ∧
    Function.Injective modelsText ∧
    (∀ d : Diagnostic, Diagnostic.ofJson d.toJson = .ok d) ∧
    ∀ o : Options, Options.ofJson o.toJson = .ok o :=
  ⟨fun ms => ⟨_, parse_modelsText ms, listOfJson_map TypeModel.ofJson_toJson ms⟩,
    modelsText_injective, Diagnostic.ofJson_toJson, Options.ofJson_toJson⟩

end StructModel
