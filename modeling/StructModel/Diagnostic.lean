/-!
# Diagnostics

What an extraction has to say beside its models: notices of what was done and warnings of what was
left out.
-/

namespace StructModel

inductive Severity where
  | notice
  | warning
  deriving DecidableEq, Repr

def Severity.text : Severity → String
  | notice => "notice"
  | warning => "warning"

/-- The field is a dotted path within the declaration. Lines count from 1. -/
structure Diagnostic where
  severity : Severity
  message : String
  declaration : Option String := none
  field : Option String := none
  line : Option Nat := none
  deriving DecidableEq, Repr

inductive Level where
  | debug
  | info
  | warn
  deriving DecidableEq, Repr

/-- A diagnostic as it is logged, with an empty text or a zero for what it lacks. -/
structure Event where
  level : Level
  message : String
  declaration : String
  field : String
  line : Nat
  deriving DecidableEq, Repr

namespace Diagnostic

def notice (message : String) : Diagnostic := { severity := .notice, message := message }

def warning (message : String) : Diagnostic := { severity := .warning, message := message }

def inDeclaration (d : Diagnostic) (name : String) : Diagnostic :=
  { d with declaration := some name }

def onField (d : Diagnostic) (path : String) : Diagnostic := { d with field := some path }

def atLine (d : Diagnostic) (line : Nat) : Diagnostic := { d with line := some line }

def isWarning (d : Diagnostic) : Bool := d.severity == .warning

def render (d : Diagnostic) : String :=
  match d.line with
  | some n => d.severity.text ++ ": line " ++ toString n ++ ": " ++ d.message
  | none => d.severity.text ++ ": " ++ d.message

def event (d : Diagnostic) : Event where
  level := match d.severity with
    | .notice => .info
    | .warning => .warn
  message := d.message
  declaration := d.declaration.getD ""
  field := d.field.getD ""
  line := d.line.getD 0

end Diagnostic

end StructModel
