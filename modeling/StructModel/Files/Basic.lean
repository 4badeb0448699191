/-!
# Files and directories

A working directory with what is in it, each node under its path from there. Paths are walked name
by name: a name that is empty or a single point stays where it is, two points go up. Nothing outside
the working directory can be seen but that directories are there.
-/

namespace StructModel

inductive Node where
  | file (bytes : ByteArray)
  | directory

structure Files where
  nodes : List (List String × Node) := []

inductive FileError where
  | notFound
  | notDirectory
  | isDirectory
  | nameTooLong
  | notText
  | nulInName
  deriving DecidableEq, Repr

def FileError.message : FileError → String
  | notFound => "No such file or directory (os error 2)"
  | notDirectory => "Not a directory (os error 20)"
  | isDirectory => "Is a directory (os error 21)"
  | nameTooLong => "File name too long (os error 36)"
  | notText => "stream did not contain valid UTF-8"
  | nulInName => "file name contained an unexpected NUL byte"

namespace Files

/-- A place that a path leads to: one under the working directory, or a directory above it. -/
inductive Place where
  | inside (names : List String)
  | above
  deriving DecidableEq, Repr

/-- The most bytes of a name. -/
def nameLimit : Nat := 255

/-- Paths have fewer bytes than this. -/
def pathLimit : Nat := 4096

def node? (f : Files) : Place → Option Node
  | .above => some .directory
  | .inside [] => some .directory
  | .inside names => f.nodes.lookup names

def up : Place → Place
  | .above => .above
  | .inside [] => .above
  | .inside names => .inside names.dropLast

/-- What a name leads to from a directory. -/
def enter (f : Files) (p : Place) (name : String) : Except FileError Place :=
  if name = "" ∨ name = "." then .ok p
  else if name = ".." then .ok (up p)
  else if nameLimit < name.utf8ByteSize then .error .nameTooLong
  else
    match p with
    | .above => .error .notFound
    | .inside names =>
      match f.node? (.inside (names ++ [name])) with
      | some _ => .ok (.inside (names ++ [name]))
      | none => .error .notFound

def walk (f : Files) : Place → List String → Except FileError Place
  | p, [] => .ok p
  | p, name :: names =>
    match f.node? p with
    | some .directory =>
      match f.enter p name with
      | .error e => .error e
      | .ok p => f.walk p names
    | _ => .error .notDirectory

/-- What is wrong with a path wherever it leads. -/
def pathError? (path : String) : Option FileError :=
  if path.contains '\x00' then some .nulInName
  else if path = "" then some .notFound
  else if pathLimit ≤ path.utf8ByteSize then some .nameTooLong
  else none

/-- Paths that begin with a slash begin above the working directory. -/
def start (path : String) : Place :=
  if path.startsWith "/" then .above else .inside []

def find (f : Files) (path : String) : Except FileError Node :=
  match pathError? path with
  | some e => .error e
  | none =>
    match f.walk (start path) (path.splitOn "/") with
    | .error e => .error e
    | .ok p =>
      match f.node? p with
      | some n => .ok n
      | none => .error .notFound

def isFile (f : Files) (path : String) : Bool :=
  match f.find path with
  | .ok (.file _) => true
  | _ => false

/-- The text of a file. -/
def readText (f : Files) (path : String) : Except FileError String :=
  match f.find path with
  | .error e => .error e
  | .ok .directory => .error .isDirectory
  | .ok (.file bytes) =>
    match String.fromUTF8? bytes with
    | some text => .ok text
    | none => .error .notText

/-- The path of a name in a directory. -/
def join (directory name : String) : String :=
  if directory = "" ∨ directory.endsWith "/" then directory ++ name
  else directory ++ "/" ++ name

end Files

end StructModel
