import StructModel.Error
import StructModel.Extract.Fields
import StructModel.Source

/-!
# Extraction of a file

The declarations of struct types at the top level are extracted one by one, those with type
parameters left out. The first clash ends the extraction; otherwise each declaration gives a model,
if it has fields, and a summary of it.
-/

namespace StructModel.Extract

open StructModel.Go

/-- A declared struct type. The text is that of the type, the line that of the name. -/
structure AggregateDecl where
  name : String
  line : Nat
  fields : List FieldDecl
  text : String

structure Extraction where
  models : List TypeModel
  diagnostics : List Diagnostic
  deriving DecidableEq

def typeSpecs : TopLevel → List TypeSpec
  | .types specs => specs
  | _ => []

/-- The declaration of a specification whose type is a struct type itself. -/
def aggregateOfSpec? (s : TypeSpec) : Option AggregateDecl :=
  match s.type with
  | .struct fields => some ⟨s.name, s.line, fields, s.text⟩
  | _ => none

/-- Whether the options let a declaration of the name take part. -/
def isSelected (o : Options) (name : String) : Bool := !o.exportedOnly || Text.isExported name

/-- The specifications of struct types that take part, in source order. -/
def selectedSpecs (o : Options) (items : List TopLevel) : List TypeSpec :=
  (items.flatMap typeSpecs).filter fun s => (aggregateOfSpec? s).isSome && isSelected o s.name

def genericWarning (s : TypeSpec) : Diagnostic :=
  ((Diagnostic.warning (s.name ++ " skipped: generic declarations are not supported")).inDeclaration
    s.name).atLine s.line

def genericWarnings (o : Options) (items : List TopLevel) : List Diagnostic :=
  ((selectedSpecs o items).filter TypeSpec.isGeneric).map genericWarning

def aggregateDecls (o : Options) (items : List TopLevel) : List AggregateDecl :=
  ((selectedSpecs o items).filter fun s => !s.isGeneric).filterMap aggregateOfSpec?

/-- The model of a declaration with the given fields, if there are any. -/
def modelOf (d : AggregateDecl) (fields : List Field) : Option TypeModel :=
  if fields.isEmpty then none else some (TypeModel.ofFields d.name fields)

/-- The summary of a declaration with the given fields. -/
def summary (d : AggregateDecl) (fields : List Field) : Diagnostic :=
  let diagnostic :=
    if fields.isEmpty then Diagnostic.warning (d.name ++ " has no eligible fields")
    else .notice ("parsed " ++ d.name ++ " (" ++ toString fields.length ++ " fields)")
  (diagnostic.inDeclaration d.name).atLine d.line

/-- The error that a clash within a declaration is. -/
def clashError (file : String) (d : AggregateDecl) (c : Clash) : ExtractError :=
  .duplicateKey file (dotted (d.name :: c.path)) c.key

def extractDecl (o : Options) (file : String) (d : AggregateDecl) :
    Except ExtractError Extraction :=
  match extractFields o d.fields {} with
  | (.error c, _) => .error (clashError file d c)
  | (.ok fields, s) =>
    .ok ⟨(modelOf d fields).toList, s.notes.map (Note.diagnostic d.name) ++ [summary d fields]⟩

def Extraction.append (x y : Extraction) : Extraction :=
  ⟨x.models ++ y.models, x.diagnostics ++ y.diagnostics⟩

def extractDecls (o : Options) (file : String) :
    List AggregateDecl → Except ExtractError Extraction
  | [] => .ok ⟨[], []⟩
  | d :: ds =>
    match extractDecl o file d with
    | .error e => .error e
    | .ok x =>
      match extractDecls o file ds with
      | .error e => .error e
      | .ok y => .ok (x.append y)

def extract (o : Options) (f : SourceFile) : Except ExtractError Extraction :=
  match extractDecls o f.name (aggregateDecls o f.items) with
  | .error e => .error e
  | .ok x => .ok (Extraction.append ⟨[], genericWarnings o f.items⟩ x)

/-- Parse and extract a text under a name. -/
def extractSource (o : Options) (text name : String) : Except ExtractError Extraction :=
  match SourceFile.parse text name with
  | .error e => .error e
  | .ok f => extract o f

namespace Extraction

/-- The first model of a name. -/
def model? (x : Extraction) (name : String) : Option TypeModel :=
  x.models.find? fun m => m.name == name

def warnings (x : Extraction) : List Diagnostic := x.diagnostics.filter Diagnostic.isWarning

end Extraction

end StructModel.Extract
