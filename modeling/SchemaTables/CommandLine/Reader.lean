import SchemaTables.CommandLine.Form
import SchemaTables.Text.Search

/-!
Reading the words of a command line by the form of a program. Words are taken from the left: options
of the program, the name of a command, then options and arguments of the command in any order. The
first word that fits nowhere, or asks for help, ends the reading. A lone `--` says that all words after
it are arguments.
-/

namespace SchemaTables.CommandLine

/-- Why a command line is not read to its end. -/
inductive Stop where
  /-- It does not keep to the form. -/
  | usage
  /-- Nothing is asked for. -/
  | empty
  /-- Help is asked for, on the program or on one of its topics. -/
  | help (topic : Option CommandForm)
  | version
deriving DecidableEq, Repr

/-- What was given in front of a command, or after it. -/
structure Given where
  /-- Options by their long name, with their value if they take one. -/
  options : List (String × String) := []
  arguments : List String := []
deriving DecidableEq, Repr

/-- What the next word may belong to. -/
inductive Focus where
  | program
  | command (form : CommandForm)
  /-- After the command that shows help, with its topic. -/
  | help (topic : Option CommandForm)
deriving DecidableEq, Repr

structure Reader where
  focus : Focus := .program
  /-- What was given in front of the command. -/
  outer : Given := {}
  /-- What was given after it. -/
  inner : Given := {}
  /-- An option that waits for its value. -/
  pending : Option OptionForm := none
  /-- All words are arguments. -/
  isPlain : Bool := false
deriving DecidableEq, Repr

namespace Reader

def optionForms (f : ProgramForm) (r : Reader) : List OptionForm :=
  match r.focus with
  | .program => f.rootOptions
  | .command c => f.commandOptions c
  | .help _ => []

/-- The command that help is given on. -/
def topic (r : Reader) : Option CommandForm :=
  match r.focus with
  | .command c => some c
  | _ => none

/-- What was given at the place of the next word. -/
def current (r : Reader) : Given :=
  match r.focus with
  | .program => r.outer
  | _ => r.inner

def setCurrent (r : Reader) (g : Given) : Reader :=
  match r.focus with
  | .program => { r with outer := g }
  | _ => { r with inner := g }

/-- Notes an option, which must not be given twice in one place. -/
def note (r : Reader) (o : OptionForm) (value : String) : Except Stop Reader :=
  let g := r.current
  if (g.options.lookup o.long).isSome then .error .usage
  else .ok { r.setCurrent { g with options := (o.long, value) :: g.options } with pending := none }

/-- Gives an option its value. -/
def giveValue (r : Reader) (o : OptionForm) (value : String) : Except Stop Reader :=
  match o.effect with
  | .takesValue _ kind => if kind.accepts value then r.note o value else .error .usage
  | _ => .error .usage

/-- Takes an option that no value is attached to. -/
def takeOption (r : Reader) (o : OptionForm) : Except Stop Reader :=
  match o.effect with
  | .takesValue .. => .ok { r with pending := some o }
  | .sets => r.note o ""
  | .showsHelp => .error (.help r.topic)
  | .showsVersion => .error .version

/-- Takes the letters after a dash: options without values, and at the end one that takes the rest as its
value. -/
def takeLetters (f : ProgramForm) (r : Reader) : List Char → Except Stop Reader
  | [] => .ok r
  | c :: rest =>
    match (r.optionForms f).find? (·.short == some c) with
    | none => .error .usage
    | some o =>
      match o.effect, rest with
      | .takesValue .., '=' :: value => r.giveValue o (String.ofList value)
      | .takesValue .., d :: value => r.giveValue o (String.ofList (d :: value))
      | _, _ => do (← r.takeOption o).takeLetters f rest

/-- Takes what stands after two dashes: a name, or a name and a value with an equals sign between. -/
def takeLong (f : ProgramForm) (r : Reader) (word : List Char) : Except Stop Reader :=
  let name := String.ofList (Text.before '=' word)
  match (r.optionForms f).find? (·.long == name) with
  | none => .error .usage
  | some o =>
    match Text.cutAt '=' word with
    | some (_, value) => r.giveValue o (String.ofList value)
    | none => r.takeOption o

/-- The form of the next argument of a command that has some already. -/
def argumentForm? (c : CommandForm) (count : Nat) : Option ArgumentForm :=
  match c.arguments[count]? with
  | some a => some a
  | none => c.arguments.getLast?.filter ArgumentForm.takesMany

def takeArgument (r : Reader) (word : String) : Except Stop Reader :=
  match r.focus with
  | .command c =>
    match argumentForm? c r.inner.arguments.length with
    | some a =>
      if a.kind.accepts word then
        .ok { r with inner := { r.inner with arguments := r.inner.arguments ++ [word] } }
      else .error .usage
    | none => .error .usage
  | _ => .error .usage

/-- Takes a word that is no option. In front of a command it has to be the name of one. -/
def takeWord (f : ProgramForm) (r : Reader) (word : String) : Except Stop Reader :=
  match r.focus with
  | .program =>
    if word = helpCommand.name then .ok { r with focus := .help none }
    else match f.command? word with
      | some c => .ok { r with focus := .command c }
      | none => .error .usage
  | _ => r.takeArgument word

/-- The topic of a request for help. There is one at most. -/
def takeTopic (f : ProgramForm) (r : Reader) (topic : Option CommandForm) (word : String) :
    Except Stop Reader :=
  match topic, f.topics.find? (·.name == word) with
  | none, some c => .ok { r with focus := .help (some c) }
  | _, _ => .error .usage

/-- Takes a word as an option if it looks like one. -/
def takeFree (f : ProgramForm) (r : Reader) (word : String) : Except Stop Reader :=
  match word.toList with
  | ['-', '-'] => .ok { r with isPlain := true }
  | '-' :: '-' :: name => r.takeLong f name
  | '-' :: c :: letters => r.takeLetters f (c :: letters)
  | _ => r.takeWord f word

/-- Whether a word cannot be the value of the option in front of it. -/
def looksLikeOption (word : String) : Bool :=
  match word.toList with
  | '-' :: _ :: _ => true
  | _ => false

/-- Takes one word. -/
def step (f : ProgramForm) (r : Reader) (word : String) : Except Stop Reader :=
  match r.focus with
  | .help topic => r.takeTopic f topic word
  | _ =>
    if r.isPlain then r.takeArgument word
    else match r.pending with
      | some o => if looksLikeOption word then .error .usage else r.giveValue o word
      | none => r.takeFree f word

end Reader

/-- Whether all that a command needs was given. -/
def isComplete (c : CommandForm) (g : Given) : Bool :=
  c.arguments.length ≤ g.arguments.length &&
    c.options.all fun o => !o.isRequired || (g.options.lookup o.long).isSome

/-- What was given for a command. -/
structure Matched where
  command : CommandForm
  /-- Options of the program; those after the command come first, and count more. -/
  options : List (String × String)
  arguments : List String
deriving DecidableEq, Repr

/-- Reads a command line. -/
def read (f : ProgramForm) (words : List String) : Except Stop Matched := do
  let r ← words.foldlM (Reader.step f) {}
  match r.focus with
  | .help topic => throw (.help topic)
  | .program => throw (if r.outer.options.isEmpty && r.pending.isNone then .empty else .usage)
  | .command c =>
    if r.pending.isNone && isComplete c r.inner then
      return ⟨c, r.inner.options ++ r.outer.options, r.inner.arguments⟩
    else throw .usage

namespace Matched

/-- The value of an option, or its default. -/
def value? (m : Matched) (o : OptionForm) : Option String := m.options.lookup o.long <|> o.default

def isSet (m : Matched) (o : OptionForm) : Bool := (m.options.lookup o.long).isSome

end Matched

end SchemaTables.CommandLine
