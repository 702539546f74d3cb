import PredicateTree.Text.Location

/-!
# Diagnostic

What a stage reports about a document: a message, how serious it is, the stage it comes from and,
if known, the place in the text.
-/

namespace PredicateTree

inductive Severity where
  | error
  | warning
  | info
deriving DecidableEq

def Severity.text : Severity → String
  | .error => "ERROR"
  | .warning => "WARNING"
  | .info => "INFO"

inductive Phase where
  | parsing
  | lowering
  | expansion
  | negation
  | evaluation
deriving DecidableEq

def Phase.text : Phase → String
  | .parsing => "parse"
  | .lowering => "lower"
  | .expansion => "expand"
  | .negation => "negate"
  | .evaluation => "eval"

structure Diagnostic where
  severity : Severity
  phase : Phase
  message : String
  location : Option Location := none
deriving DecidableEq

namespace Diagnostic

def error (phase : Phase) (message : String) : Diagnostic := ⟨.error, phase, message, none⟩

def warning (phase : Phase) (message : String) : Diagnostic := ⟨.warning, phase, message, none⟩

def info (phase : Phase) (message : String) : Diagnostic := ⟨.info, phase, message, none⟩

/-- The same report, placed. -/
def at_ (d : Diagnostic) (l : Location) : Diagnostic := { d with location := some l }

def isError (d : Diagnostic) : Bool := d.severity == .error

def text (d : Diagnostic) : String :=
  let place := match d.location with
    | some l => " " ++ l.text
    | none => ""
  d.severity.text ++ " [" ++ d.phase.text ++ "]" ++ place ++ ": " ++ d.message

end Diagnostic

end PredicateTree
