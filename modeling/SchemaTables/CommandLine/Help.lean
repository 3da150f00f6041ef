import SchemaTables.CommandLine.Form
import SchemaTables.Text.Quoted
import SchemaTables.Text.Blank
import SchemaTables.Text.Search

/-!
The help of a command: what it is about, how it is used, its arguments and its options. A list has its
names in one column and what they mean in another; when that leaves too little room for one of them, all
meanings stand on lines of their own.
-/

namespace SchemaTables.CommandLine

/-- The width that help is laid out for. -/
def helpWidth : Nat := 100

def spaces (n : Nat) : String := String.ofList (List.replicate n ' ')

/-- A line of a list in a help text. -/
structure HelpItem where
  /-- What stands in front of the name. -/
  mark : String := ""
  name : String
  meaning : String

namespace HelpItem

/-- Whether what an item means does not fit next to names of a width. `taken` is the width of the marks
and gaps. -/
def isCramped (width taken : Nat) (i : HelpItem) : Bool :=
  let taken := width + taken
  5 * taken > 2 * helpWidth && i.meaning.length > helpWidth - taken

def line (width : Nat) (below : Bool) (i : HelpItem) : String :=
  "  " ++ i.mark ++ i.name ++
    if below then "\n" ++ spaces 10 ++ i.meaning
    else spaces (width - i.name.length + 2) ++ i.meaning

end HelpItem

/-- The lines of a list, whose marks and gaps are `taken` wide. -/
def listLines (taken : Nat) (items : List HelpItem) : List String :=
  let width := (items.map fun i => i.name.length).foldl max 2
  let below := items.any (HelpItem.isCramped width taken)
  items.map (HelpItem.line width below)

/-- A default value; one with blanks in it is quoted. -/
def defaultText (v : String) : String :=
  "[default: " ++ (if v.toList.any Text.isBlank then Text.quoted v else v) ++ "]"

/-- The help, and after it what goes without saying. -/
def meaning (help : String) (note : Option String) : String :=
  Text.joinWith " " ((if help.isEmpty then [] else [help]) ++ note.toList)

namespace OptionForm

def placeholder : OptionForm → String
  | { effect := .takesValue p _, .. } => " <" ++ p ++ ">"
  | _ => ""

/-- The long name with the placeholder. -/
def spelling (o : OptionForm) : String := "--" ++ o.long ++ o.placeholder

def helpItem (o : OptionForm) : HelpItem where
  mark := match o.short with
    | some c => "-" ++ c.toString ++ ", "
    | none => "    "
  name := o.spelling
  meaning := CommandLine.meaning o.help (o.default.map defaultText)

/-- Options with the same rank are sorted by this. -/
def sortKey (o : OptionForm) : String :=
  match o.short with
  | some c => c.toLower.toString ++ if c.isLower then "0" else "1"
  | none => o.long

end OptionForm

namespace ArgumentForm

def spelling (a : ArgumentForm) : String :=
  (if a.isOptional then "[" ++ a.placeholder ++ "]" else "<" ++ a.placeholder ++ ">") ++
    if a.takesMany then "..." else ""

def choices (a : ArgumentForm) : Option String :=
  match a.kind with
  | .choice texts => some ("[possible values: " ++ Text.joinWith ", " texts ++ "]")
  | _ => none

def helpItem (a : ArgumentForm) : HelpItem where
  name := a.spelling
  meaning := CommandLine.meaning a.help a.choices

end ArgumentForm

/-- Options by their rank, which is the place in their own list, then by their sort key. The options that
end every list come last. -/
def sortedOptions (groups : List (List OptionForm)) (last : List OptionForm) : List OptionForm :=
  let ranked := (groups.map fun g => g.zipIdx).flatten
  let before (a b : OptionForm × Nat) : Bool := a.2 < b.2 || (a.2 == b.2 && a.1.sortKey ≤ b.1.sortKey)
  (ranked.mergeSort before).map (·.1) ++ last

/-- A heading with the lines under it, after an empty line. -/
def helpSection (heading : String) (lines : List String) : List String :=
  if lines.isEmpty then [] else ["", heading ++ ":"] ++ lines

def optionLines (options : List OptionForm) : List String :=
  listLines 12 (options.map OptionForm.helpItem)

def argumentLines (arguments : List ArgumentForm) : List String :=
  listLines 4 (arguments.map ArgumentForm.helpItem)

namespace ProgramForm

def commandLines (f : ProgramForm) : List String :=
  let width := (f.topics.map fun c => c.name.length).foldl max 2
  f.topics.map fun c => "  " ++ c.name ++ spaces (width - c.name.length + 2) ++ c.about

/-- The help of the program. -/
def help (f : ProgramForm) : String :=
  Text.joinWith "\n" ([f.about, "", "Usage: " ++ f.name ++ " [OPTIONS] <COMMAND>"] ++
    helpSection "Commands" f.commandLines ++
    helpSection "Options" (optionLines (sortedOptions [f.options] [helpOption, versionOption])))

/-- The help of a command with some options. -/
def helpWith (f : ProgramForm) (c : CommandForm) (options : List OptionForm) : String :=
  let required := (c.options.filter OptionForm.isRequired).map OptionForm.spelling
  let usage := [f.name, c.name] ++ (if options.isEmpty then [] else ["[OPTIONS]"]) ++ required ++
    c.arguments.map ArgumentForm.spelling
  Text.joinWith "\n" ([c.about, "", "Usage: " ++ Text.joinWith " " usage] ++
    helpSection "Arguments" (argumentLines c.arguments) ++
    helpSection "Options" (optionLines options))

/-- The help of a command. -/
def commandHelp (f : ProgramForm) (c : CommandForm) : String :=
  f.helpWith c (sortedOptions [f.options, c.options] [helpOption])

/-- The help of the command that shows help. It has no options. -/
def helpOnHelp (f : ProgramForm) : String := f.helpWith helpCommand []

end ProgramForm

end SchemaTables.CommandLine
