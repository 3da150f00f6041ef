import SchemaTables.Files.Basic

/-!
Whole files and directories with what is above them. A file is replaced through a sibling, so that at
no moment there is a file with a part of the new content under its name.
-/

namespace SchemaTables

namespace Files

/-- Makes a directory unless it is there. -/
def makeOne (p : Path) : Task FileError Unit := ExceptT.mk do
  match ← Script.request (.makeDirectory p) with
  | .ok () => return .ok ()
  | .error e =>
    match ← Script.request (.isDirectory p) with
    | .ok true => return .ok ()
    | _ => return .error e

/-- Makes a directory and those above it that are missing, up to a path without components. -/
def makeDirectoriesFrom : Nat → Path → Task FileError Unit
  | 0, _ => pure ()
  | depth + 1, p => do
    match ← ExceptT.lift (makeOne p).run with
    | .error .notFound =>
      match p.parent? with
      | some q =>
        makeDirectoriesFrom depth q
        makeOne p
      | none => throw .notFound
    | r => ExceptT.mk (.done r)

/-- Makes a directory and those above it that are missing. The empty path is there already. -/
def makeDirectories (p : Path) : Task FileError Unit := makeDirectoriesFrom p.components.length p

/-- Makes the directory that a path lies in. -/
def makeParent (p : Path) : Task FileError Unit :=
  match p.directory? with
  | some dir => makeDirectories dir
  | none => pure ()

/-- Writes a file, over one that is there. -/
def write (p : Path) (content : Bytes) : Task FileError Unit := do
  Task.request id (.create p)
  Task.request id (.append p content)

def writeText (p : Path) (text : String) : Task FileError Unit := write p (Text.Utf8.encode text)

/-- Adds a line to a file, which is made if it is missing. -/
def addLine (p : Path) (line : String) : Task FileError Unit := do
  Task.request id (.touch p)
  Task.request id (.append p (Text.Utf8.encode (line ++ "\n")))

def read (p : Path) : Task FileError Bytes := Task.request id (.read p)

def readText (p : Path) : Task FileError String := do
  match Text.Utf8.decode? (← read p) with
  | some text => return text
  | none => throw .notText

/-- Removes a file unless it is missing. -/
def removeIfThere (p : Path) : Task FileError Unit := ExceptT.mk do
  match ← Script.request (.remove p) with
  | .error .notFound => return .ok ()
  | r => return r

/-- The sibling through which a file is replaced. -/
def temporary? (p : Path) : Option Path := p.fileName?.map fun n => p.withFileName (n ++ ".tmp")

/-- Replaces a file, with the directories it lies in, and gives the number of bytes. -/
def replace (p : Path) (content : Bytes) : Task FileError Nat := do
  makeParent p
  match temporary? p with
  | none => throw (.noFileName p)
  | some tmp =>
    write tmp content
    Task.request id (.sync tmp)
    Task.request id (.rename tmp p)
    if let some dir := p.directory? then Task.request id (.sync dir)
    return content.length

end Files

end SchemaTables
