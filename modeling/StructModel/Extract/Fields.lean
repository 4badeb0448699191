import StructModel.Extract.Duplicates
import StructModel.Extract.Scope
import StructModel.Go.TypeExpr
import StructModel.Tag.Pairs

/-!
# Elements of types and fields of structs

The supported types are a closed set: names, pointers, slices, arrays, structs and two kinds of
maps, with any parentheses. A field whose type is not among them is left out with a warning.
-/

namespace StructModel.Extract

open StructModel.Go

/-- The element of a named type. The name `any` stands for no serializable shape of its own. -/
def namedElement (name : String) : Option Element :=
  match BaseKind.ofIdent? name with
  | some kind => some (.base kind)
  | none => if name = "any" then none else some (.deferred name)

/-- The identifier of a byte, inside any parentheses. -/
def isByte (t : TypeExpr) : Bool :=
  match t.unparen with
  | .name n => BaseKind.ofIdent? n == some .uint8
  | _ => false

/-- Exactly the identifier `string`, without parentheses. -/
def isString : TypeExpr → Bool
  | .name n => n == "string"
  | _ => false

/-- A type of values of any shape: `any` or an interface without members. -/
def isDynamic (t : TypeExpr) : Bool :=
  match t.unparen with
  | .interface members => members == 0
  | .name n => n == "any"
  | _ => false

def mapElement (key value : TypeExpr) : Option Element :=
  if isString key then
    if isString value then some (.base .mapStrStr)
    else if isDynamic value then some (.base .mapStrIntf)
    else none
  else none

/-- The element of a type, `none` for an unsupported type. -/
abbrev Builder := Extractor (Option Element)

/-- The element inside a pointer or a sequence, in its layer. -/
def layer (form : Element → Element) (x : Builder) : Builder := do
  let e ← x
  return e.map form

/-- What a tag makes of a field. -/
inductive TagEffect where
  | key (k : String)
  | exclude
  deriving DecidableEq, Repr

def tagValue (o : Options) (tag : Option String) : Option String := do
  let literal ← tag
  let text ← Tag.literalValue literal.toList
  Tag.lookup text o.tagKey

/-- The tag `-` excludes a field. Without a tag, or with an empty one, the key is the name. -/
def tagEffect (o : Options) (tag : Option String) (name : String) : TagEffect :=
  match tagValue o tag with
  | some "-" => .exclude
  | none | some "" => .key name
  | some k => .key k

/-- The slot of a field, none for an unsupported type. -/
def slot (name key text : String) (line : Nat) (x : Builder) : Extractor (List Slot) := do
  match ← x.within name with
  | some e => return [⟨⟨name, key, e⟩, line⟩]
  | none =>
    Extractor.note name (.unsupported text) line
    return []

/-- The slot of a field that has one name and so heeds its tag. -/
def taggedSlot (o : Options) (tag : Option String) (name text : String) (line : Nat)
    (x : Builder) : Extractor (List Slot) :=
  match tagEffect o tag name with
  | .exclude => do
    Extractor.note name .excluded line
    return []
  | .key k => slot name k text line x

/-- A slot for each of several names. The tag is not heeded. -/
def slotsOfNames (text : String) (line : Nat) (x : Builder) :
    List String → Extractor (List Slot)
  | [] => return []
  | n :: ns => do
    let first ← slot n n text line x
    let rest ← slotsOfNames text line x ns
    return first ++ rest

def noteSupersedings : List Superseding → Extractor Unit
  | [] => return ()
  | s :: ss => do
    Extractor.note s.slot.field.sourceName (.superseding s.earlier s.slot.field.outputKey)
      s.slot.line
    noteSupersedings ss

/-- The fields of the present struct from its slots. -/
def fieldsOfSlots (o : Options) (slots : List Slot) : Extractor (List Field) :=
  match resolve o.duplicateKeys slots with
  | .error key => Extractor.clash key
  | .ok (fields, ss) => do
    noteSupersedings ss
    return fields

mutual

def build (o : Options) : TypeExpr → Builder
  | .name n => return namedElement n
  | .pointer t => layer .optional (build o t)
  | .slice t => if isByte t then return some (.base .bytes) else layer .sequence (build o t)
  | .array t => if isByte t then return some (.base .bytes) else layer .sequence (build o t)
  | .map k v => return mapElement k v
  | .struct ds => do
    let slots ← slotsOfDecls o ds
    let fields ← fieldsOfSlots o slots
    return some (.aggregate fields)
  | .paren t => build o t
  | .interface _ => return none
  | .other _ => return none

/-- The slots of a field declaration. An embedded field has the name of its type. -/
def slotsOfDecl (o : Options) : FieldDecl → Extractor (List Slot)
  | ⟨.named name [], type, text, tag, line⟩ => taggedSlot o tag name text line (build o type)
  | ⟨.named name others, type, text, _, line⟩ =>
    slotsOfNames text line (build o type) (name :: others)
  | ⟨.embedded indirect, .name n, text, tag, line⟩ =>
    taggedSlot o tag n text line
      (if indirect then layer .optional (return namedElement n) else return namedElement n)
  | ⟨.embedded _, _, text, _, line⟩ => do
    Extractor.note text (.unnamed text) line
    return []

def slotsOfDecls (o : Options) : List FieldDecl → Extractor (List Slot)
  | [] => return []
  | d :: ds => do
    let first ← slotsOfDecl o d
    let rest ← slotsOfDecls o ds
    return first ++ rest

end

/-- The fields of a struct with the given declarations. -/
def extractFields (o : Options) (ds : List FieldDecl) : Extractor (List Field) := do
  let slots ← slotsOfDecls o ds
  fieldsOfSlots o slots

theorem build_struct (o : Options) (ds : List FieldDecl) :
    build o (.struct ds) = (extractFields o ds >>= fun fields => return some (.aggregate fields)) := by
  funext s
  simp only [build, extractFields, Extractor.bind_apply]
  rcases slotsOfDecls o ds s with ⟨_ | _, _⟩ <;> rfl

@[simp] theorem build_paren (o : Options) (t : TypeExpr) : build o (.paren t) = build o t := by
  simp [build]

theorem build_unparen (o : Options) (t : TypeExpr) : build o t.unparen = build o t := by
  fun_induction TypeExpr.unparen t with
  | case1 t ih => rw [ih, build_paren]
  | case2 => rfl

end StructModel.Extract
