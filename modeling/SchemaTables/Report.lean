import SchemaTables.Json.Basic

/-!
Reports of what was found in a document: issues with a code, the place and a message, gathered as errors
and warnings. A report without errors is in order, whatever it warns of.
-/

namespace SchemaTables

inductive Severity where
  | error
  | warning
deriving DecidableEq, Repr

def Severity.name : Severity → String
  | error => "error"
  | warning => "warning"

structure Issue where
  severity : Severity
  code : String
  /-- Where in the document: a pointer whose root is written as a slash. -/
  path : String
  message : String
  hint : Option String := none
deriving DecidableEq, Repr

/-- An issue that is an error without a hint. -/
def Issue.error (code path message : String) : Issue := ⟨.error, code, path, message, none⟩

def Issue.text (i : Issue) : String :=
  "[" ++ i.code ++ "] " ++ i.path ++ ": " ++ i.message ++
    match i.hint with
    | some hint => " (hint: " ++ hint ++ ")"
    | none => ""

structure Report where
  errors : List Issue := []
  warnings : List Issue := []
deriving DecidableEq, Repr

namespace Report

def isOk (r : Report) : Bool := r.errors.isEmpty

def addError (r : Report) (i : Issue) : Report := { r with errors := r.errors ++ [i] }

def addWarning (r : Report) (i : Issue) : Report := { r with warnings := r.warnings ++ [i] }

/-- The issues of both, those of the first in front. -/
def merge (r s : Report) : Report := ⟨r.errors ++ s.errors, r.warnings ++ s.warnings⟩

def single (i : Issue) : Report := ⟨[i], []⟩

/-- The number of errors and a line for each; warnings are not shown. -/
def text (r : Report) : String :=
  toString r.errors.length ++ " error(s)" ++ String.join (r.errors.map fun i => "\n  " ++ i.text)

end Report

/-- A pointer into a document as it is reported. -/
def reportedPointer (pointer : String) : String := if pointer.isEmpty then "/" else pointer

end SchemaTables
