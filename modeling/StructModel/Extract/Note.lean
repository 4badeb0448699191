import StructModel.Diagnostic
import StructModel.Text.Quoted

/-!
# Notes on fields

What field extraction has to say about a field: its path, what has become of it and why. A clash of
two output keys is no note, it ends the extraction.
-/

namespace StructModel.Extract

inductive Cause where
  /-- The tag says that the field is left out. -/
  | excluded
  /-- The type, given by its source text, has no element. -/
  | unsupported (typeText : String)
  /-- The type of an embedded field, given by its source text, is no plain name. -/
  | unnamed (typeText : String)
  /-- The field has taken the output key of an earlier field. -/
  | superseding (earlier key : String)
  deriving DecidableEq, Repr

/-- The path leads to the struct of the field. An embedded field without a name has the source text
of its type as its leaf. -/
structure Note where
  path : List String
  leaf : String
  cause : Cause
  line : Nat
  deriving DecidableEq, Repr

/-- Two fields of the struct at a path have the same output key. -/
structure Clash where
  path : List String
  key : String
  deriving DecidableEq, Repr

def dotted (parts : List String) : String := String.intercalate "." parts

namespace Note

/-- The dotted path of a field of the same struct. -/
def fieldPath (n : Note) (leaf : String) : String := dotted (n.path ++ [leaf])

def message (n : Note) : String :=
  match n.cause with
  | .excluded => "field " ++ n.fieldPath n.leaf ++ " excluded by tag"
  | .unsupported text =>
    "field " ++ n.fieldPath n.leaf ++ " skipped: unsupported type `" ++ text ++ "`"
  | .unnamed text => "embedded field `" ++ text ++ "` skipped: no derivable field name"
  | .superseding earlier key =>
    "field " ++ n.fieldPath earlier ++ " dropped: output key " ++ Text.quoted key ++
      " reused by " ++ n.fieldPath n.leaf

def severity (n : Note) : Severity :=
  match n.cause with
  | .excluded => .notice
  | _ => .warning

/-- The field that the diagnostic of a note names. -/
def field (n : Note) : String :=
  match n.cause with
  | .unnamed text => text
  | _ => n.fieldPath n.leaf

def diagnostic (declaration : String) (n : Note) : Diagnostic where
  severity := n.severity
  message := n.message
  declaration := some declaration
  field := some n.field
  line := some n.line

end Note

end StructModel.Extract
