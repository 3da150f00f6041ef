import SchemaTables.Path.Basic
import SchemaTables.Text.Utf8

/-!
What the library asks of a file system. A script is a tree of requests, each followed by what is done
with its answer; it can be run on a store of files that is a value, or on real files. So what is proved
about scripts is proved about what happens on disk, as far as the disk behaves like the store.
-/

namespace SchemaTables

/-- Why a request fails. -/
inductive FileError where
  | notFound
  | exists
  | notADirectory
  | isADirectory
  | nameTooLong
  | busy
  /-- The path holds a null character. -/
  | nullInPath
  /-- The content is not a text. -/
  | notText
  /-- The path has no file name to replace. -/
  | noFileName (path : Path)
  /-- A cause that only a real file system has. -/
  | other (text : String)
deriving DecidableEq, Repr

def FileError.message : FileError → String
  | notFound => "No such file or directory (os error 2)"
  | .exists => "File exists (os error 17)"
  | notADirectory => "Not a directory (os error 20)"
  | isADirectory => "Is a directory (os error 21)"
  | nameTooLong => "File name too long (os error 36)"
  | busy => "Device or resource busy (os error 16)"
  | nullInPath => "file name contained an unexpected NUL byte"
  | notText => "stream did not contain valid UTF-8"
  | noFileName p => "invalid path for atomic write: " ++ p.text
  | other text => text

/-- A single request, with the type of its answer. -/
inductive Request : Type → Type where
  /-- The content of a file. -/
  | read (p : Path) : Request Bytes
  | isDirectory (p : Path) : Request Bool
  | isThere (p : Path) : Request Bool
  | makeDirectory (p : Path) : Request Unit
  /-- Afterwards there is an empty file. -/
  | create (p : Path) : Request Unit
  /-- Afterwards there is a file; one that was there keeps its content. -/
  | touch (p : Path) : Request Unit
  /-- Adds to the end of a file. -/
  | append (p : Path) (content : Bytes) : Request Unit
  /-- Gives a file another name; a file with that name is gone afterwards. -/
  | rename (source target : Path) : Request Unit
  | remove (p : Path) : Request Unit
  /-- What was written is safe from a loss of power. -/
  | sync (p : Path) : Request Unit
  /-- The milliseconds since the start. -/
  | elapsed : Request Nat

/-- Requests one after the other, each of which may depend on the answers to those before. -/
inductive Script (α : Type) : Type 1 where
  | done (a : α)
  | ask {β : Type} (request : Request β) (next : Except FileError β → Script α)

namespace Script

variable {α β : Type}

def bind (s : Script α) (f : α → Script β) : Script β :=
  match s with
  | done a => f a
  | ask r next => ask r fun answer => (next answer).bind f

instance : Monad Script where
  pure := done
  bind := bind

/-- A single request; the script goes on whether it fails or not. -/
def request (r : Request α) : Script (Except FileError α) := ask r done

end Script

/-- A script that may end with an error of type `ε`. -/
abbrev Task (ε : Type) := ExceptT ε Script

namespace Task

variable {ε α : Type}

/-- A request whose failure ends the task. -/
def request (wrap : FileError → ε) (r : Request α) : Task ε α :=
  ExceptT.mk (Script.ask r fun answer => .done (answer.mapError wrap))

/-- Runs a task whose errors are of another type. -/
def lift {δ : Type} (wrap : δ → ε) (t : Task δ α) : Task ε α :=
  ExceptT.mk (t.run.bind fun r => .done (r.mapError wrap))

def ofExcept {δ : Type} (wrap : δ → ε) (r : Except δ α) : Task ε α :=
  ExceptT.mk (.done (r.mapError wrap))

/-- The milliseconds since the start, zero where there is no clock. -/
def elapsed : Task ε Nat := ExceptT.mk (Script.ask .elapsed fun t => .done (.ok (t.toOption.getD 0)))

end Task

end SchemaTables
