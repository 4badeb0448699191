import StructModel.Extract.Declarations
import StructModel.Files.Basic
import StructModel.Toml.Options

/-!
# Loading sources and options

Sources and options are read from files. A directory may hold the options of the sources in it under
a fixed name; if it does not, they are the defaults.
-/

namespace StructModel

open StructModel.Extract

/-- Why options could not be loaded. -/
inductive LoadError where
  | unreadable (path : String) (e : FileError)
  | toml (e : TomlError)
  deriving DecidableEq, Repr

/-- The words for a file that cannot be read. -/
def unreadableMessage (path : String) (e : FileError) : String :=
  "failed to read " ++ path ++ ": " ++ e.message

namespace Options

/-- The name of a file of options. -/
def fileName : String := ".msgpgen.toml"

def load (f : Files) (path : String) : Except LoadError Options :=
  match f.readText path with
  | .error e => .error (.unreadable path e)
  | .ok text =>
    match ofToml text with
    | .error e => .error (.toml e)
    | .ok o => .ok o

/-- The options of a directory. -/
def discover (f : Files) (directory : String) : Except LoadError Options :=
  let path := Files.join directory fileName
  if f.isFile path then load f path else .ok {}

end Options

def SourceFile.load (f : Files) (path : String) : Except ExtractError SourceFile :=
  match f.readText path with
  | .error e => .error (.io path e.message)
  | .ok text => SourceFile.parse text path

namespace Extract

/-- What is logged while a file is extracted. -/
inductive FileEvent where
  | loading (path : String)
  | extracted (path : String) (models warnings : Nat)
  deriving DecidableEq, Repr

def FileEvent.message : FileEvent → String
  | loading _ => "loading Go source"
  | extracted _ _ _ => "extracted type models"

/-- The extraction of a file and what is logged of it. -/
def extractFile (f : Files) (o : Options) (path : String) :
    Except ExtractError Extraction × List FileEvent :=
  match SourceFile.load f path with
  | .error e => (.error e, [.loading path])
  | .ok source =>
    match extract o source with
    | .error e => (.error e, [.loading path])
    | .ok x => (.ok x, [.loading path, .extracted path x.models.length x.warnings.length])

end Extract

end StructModel
