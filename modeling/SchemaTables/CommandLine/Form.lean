/-!
Forms of command lines: which options and arguments a command has. Arguments are read by the form, and
the help of a command is written from it.
-/

namespace SchemaTables.CommandLine

/-- Which texts a value may be. -/
inductive ValueKind where
  | text
  /-- A text that is not empty. -/
  | path
  /-- A number of 64 bits. -/
  | count
  | choice (texts : List String)
deriving DecidableEq, Repr

namespace ValueKind

/-- A number in decimal digits, with or without a plus sign. -/
def count? (text : String) : Option Nat :=
  let ds := match text.toList with
    | '+' :: ds => ds
    | ds => ds
  if ds.isEmpty || !ds.all Char.isDigit then none
  else
    let n := ds.foldl (fun n c => 10 * n + (c.toNat - '0'.toNat)) 0
    if n < Nat.pow 2 64 then some n else none

def accepts : ValueKind → String → Bool
  | text, _ => true
  | path, v => !v.isEmpty
  | count, v => (count? v).isSome
  | choice texts, v => texts.contains v

end ValueKind

/-- What giving an option does. -/
inductive Effect where
  | takesValue (placeholder : String) (kind : ValueKind)
  | sets
  | showsHelp
  | showsVersion
deriving DecidableEq, Repr

structure OptionForm where
  long : String
  short : Option Char := none
  effect : Effect
  help : String := ""
  default : Option String := none
  isRequired : Bool := false
deriving DecidableEq, Repr

structure ArgumentForm where
  placeholder : String
  kind : ValueKind
  help : String := ""
  /-- Takes all values that are left. -/
  takesMany : Bool := false
  isOptional : Bool := false
deriving DecidableEq, Repr

structure CommandForm where
  name : String
  about : String
  /-- Options of this command alone. -/
  options : List OptionForm := []
  arguments : List ArgumentForm := []
deriving DecidableEq, Repr

/-- The form of a program with several commands. -/
structure ProgramForm where
  name : String
  version : String
  about : String
  /-- Options that every command has. -/
  options : List OptionForm
  commands : List CommandForm

def helpOption : OptionForm where
  long := "help"
  short := some 'h'
  effect := .showsHelp
  help := "Print help"

def versionOption : OptionForm where
  long := "version"
  short := some 'V'
  effect := .showsVersion
  help := "Print version"

/-- The command that shows the help of another. -/
def helpCommand : CommandForm where
  name := "help"
  about := "Print this message or the help of the given subcommand(s)"
  arguments := [{
    placeholder := "COMMAND"
    kind := .text
    help := "Print help for the subcommand(s)"
    takesMany := true
    isOptional := true }]

namespace ProgramForm

def command? (f : ProgramForm) (name : String) : Option CommandForm :=
  f.commands.find? (·.name == name)

/-- The commands with the one that shows their help. -/
def topics (f : ProgramForm) : List CommandForm := f.commands ++ [helpCommand]

/-- The options in front of a command. -/
def rootOptions (f : ProgramForm) : List OptionForm := f.options ++ [helpOption, versionOption]

/-- The options after a command. -/
def commandOptions (f : ProgramForm) (c : CommandForm) : List OptionForm :=
  f.options ++ c.options ++ [helpOption]

end ProgramForm

end SchemaTables.CommandLine
