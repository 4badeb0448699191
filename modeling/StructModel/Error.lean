import StructModel.Text.Quoted

/-!
# Errors that end an extraction

Each one concerns a whole file and names it.
-/

namespace StructModel

inductive ExtractError where
  | io (path reason : String)
  | grammar (file reason : String)
  | parse (file : String) (line column : Nat) (detail : String)
  | noExports (file : String)
  | duplicateKey (file declaration key : String)
  deriving DecidableEq, Repr

namespace ExtractError

def file : ExtractError → String
  | io path _ => path
  | grammar file _ => file
  | parse file _ _ _ => file
  | noExports file => file
  | duplicateKey file _ _ => file

def message : ExtractError → String
  | io path reason => "failed to read " ++ path ++ ": " ++ reason
  | grammar file reason => file ++ ": tree-sitter init: " ++ reason
  | parse file line column detail =>
    file ++ ":" ++ toString line ++ ":" ++ toString column ++ ": parse error: " ++ detail
  | noExports file => file ++ ": no exports in file"
  | duplicateKey file declaration key =>
    file ++ ": duplicate output key " ++ Text.quoted key ++ " in " ++ declaration

end ExtractError

end StructModel
