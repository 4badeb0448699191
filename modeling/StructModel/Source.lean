import StructModel.Error
import StructModel.Go.File
import StructModel.Text.Uppercase

/-!
# Source files

A source file is a text that parses and declares at least one exported name at its top level. Names
that are declared deeper, and imports, do not count.
-/

namespace StructModel

open StructModel.Go

structure SourceFile where
  name : String
  text : String
  items : List TopLevel

/-- How a syntax error is described. -/
def problemText : Problem → String
  | .unexpected => "unexpected syntax"
  | .missing token => "missing " ++ token

def hasExports (items : List TopLevel) : Bool :=
  items.any fun i => i.declaredNames.any Text.isExported

theorem hasExports_iff {items : List TopLevel} :
    hasExports items = true ↔
      ∃ i ∈ items, ∃ n ∈ i.declaredNames, Text.isExported n = true := by
  simp [hasExports]

namespace SourceFile

/-- The name of a text that comes from no file. -/
def memoryName : String := "<memory>"

def ofTree (text name : String) (tree : SyntaxTree) : Except ExtractError SourceFile :=
  let items := topLevel tree
  if hasExports items then .ok ⟨name, text, items⟩ else .error (.noExports name)

def parse (text name : String) : Except ExtractError SourceFile :=
  match Go.parse text with
  | .error e => .error (.parse name e.line e.column (problemText e.problem))
  | .ok tree => ofTree text name tree

/-- A short account of a file: its name and the length of its text in bytes. -/
def debugText (f : SourceFile) : String :=
  "SourceFile \x7b name: " ++ Text.quoted f.name ++ ", len: " ++ toString f.text.utf8ByteSize ++
    " \x7d"

end SourceFile

end StructModel
