import SchemaTables.Files.Basic

/-!
Files as a value. A store knows which directories and files there are, by the names that lead to them
from the root, and from where relative paths start. A path is followed name by name, through directories
that are there; its last name may be missing where something is made.
-/

namespace SchemaTables

/-- The names that lead from the root to a file or directory. -/
abbrev Location := List String

/-- What lies at a location. -/
inductive Item where
  | directory
  | file (content : Bytes)
deriving DecidableEq, Repr

structure Store where
  /-- Where relative paths start. -/
  here : Location := []
  /-- All that there is apart from the root. -/
  items : List (Location × Item) := []

namespace Store

/-- No name and no path is longer than this, in bytes. -/
def maxName : Nat := 255
def maxPath : Nat := 4095

def item? (s : Store) (l : Location) : Option Item :=
  if l = [] then some .directory else s.items.lookup l

/-- Puts something at a location, in place of what is there. -/
def put (l : Location) (i : Item) (s : Store) : Store :=
  { s with items := (l, i) :: s.items.filter (·.1 ≠ l) }

def erase (l : Location) (s : Store) : Store := { s with items := s.items.filter (·.1 ≠ l) }

/-- The parts of a path as it is followed: names, `.` and `..`. -/
def parts (p : Path) : List String :=
  ((Text.splitAt '/' p.chars).filter (!·.isEmpty)).map String.ofList

/-- A slash at the end asks for a directory. -/
def asksDirectory (p : Path) : Bool := p.chars.getLast? == some '/'

/-- Paths that cannot be followed at all. -/
def checkPath (p : Path) : Except FileError Unit :=
  if p.chars.contains '\x00' then .error .nullInPath
  else if p.text.isEmpty then .error .notFound
  else if maxPath < p.text.utf8ByteSize then .error .nameTooLong
  else .ok ()

/-- Follows one part of a path from a location. -/
def follow (s : Store) (l : Location) (part : String) : Except FileError Location :=
  match s.item? l with
  | some .directory =>
    if part = "." then .ok l
    else if part = ".." then .ok l.dropLast
    else if maxName < part.utf8ByteSize then .error .nameTooLong
    else if (s.item? (l ++ [part])).isSome then .ok (l ++ [part])
    else .error .notFound
  | some (.file _) => .error .notADirectory
  | none => .error .notFound

/-- Where a path starts. -/
def start (s : Store) (p : Path) : Location := if p.isAbsolute then [] else s.here

/-- The location of what a path leads to. -/
def locate (s : Store) (p : Path) : Except FileError (Location × Item) := do
  checkPath p
  let l ← (parts p).foldlM s.follow (s.start p)
  match s.item? l with
  | some (.file content) => if asksDirectory p then .error .notADirectory else .ok (l, .file content)
  | some .directory => .ok (l, .directory)
  | none => .error .notFound

/-- The last name of a path, in the directory that the parts before lead to. -/
structure Place where
  directory : Location
  /-- Nothing where the path ends in `.` or `..`, or is the root. -/
  name : Option String
  asksDirectory : Bool

def Place.location (p : Place) : Location := p.directory ++ p.name.toList

/-- The place of a path whose last name may be missing. -/
def place (s : Store) (p : Path) : Except FileError Place := do
  checkPath p
  let ps := parts p
  let l ← ps.dropLast.foldlM s.follow (s.start p)
  match s.item? l with
  | some .directory =>
    match ps.getLast? with
    | none => .ok ⟨l, none, true⟩
    | some name =>
      if name = "." ∨ name = ".." then .ok ⟨l, none, true⟩
      else .ok ⟨l, some name, Store.asksDirectory p⟩
  | some (.file _) => .error .notADirectory
  | none => .error .notFound

/-- What lies at a place. -/
def itemAt (s : Store) (p : Place) : Except FileError (Option Item) :=
  if p.name.any (maxName < ·.utf8ByteSize) then .error .nameTooLong else .ok (s.item? p.location)

def read (s : Store) (p : Path) : Except FileError Bytes := do
  match ← s.locate p with
  | (_, .file content) => .ok content
  | (_, .directory) => .error .isADirectory

def isDirectory (s : Store) (p : Path) : Bool :=
  match s.locate p with
  | .ok (_, .directory) => true
  | _ => false

def isThere (s : Store) (p : Path) : Bool := (s.locate p).isOk

def makeDirectory (s : Store) (p : Path) : Except FileError Store := do
  let q ← s.place p
  match q.name with
  | none => .error .exists
  | some _ =>
    if (← s.itemAt q).isSome then .error .exists else .ok (s.put q.location .directory)

/-- Opens a file to write to it; `start` is what its content is at first, given what it was. -/
def openFile (start : Bytes → Bytes) (s : Store) (p : Path) : Except FileError Store := do
  let q ← s.place p
  if q.name.isNone || q.asksDirectory then .error .isADirectory
  else match ← s.itemAt q with
    | some .directory => .error .isADirectory
    | some (.file content) => .ok (s.put q.location (.file (start content)))
    | none => .ok (s.put q.location (.file []))

def append (s : Store) (p : Path) (content : Bytes) : Except FileError Store := do
  match ← s.locate p with
  | (l, .file before) => .ok (s.put l (.file (before ++ content)))
  | (_, .directory) => .error .isADirectory

/-- Only files are renamed. -/
def rename (s : Store) (source target : Path) : Except FileError Store := do
  let a ← s.place source
  let b ← s.place target
  if a.name.isNone || b.name.isNone then .error .busy
  else match ← s.itemAt a with
    | none => .error .notFound
    | some .directory => .error .isADirectory
    | some (.file content) =>
      let replaced ← s.itemAt b
      if a.asksDirectory || b.asksDirectory then .error .notADirectory
      else if replaced = some .directory then .error .isADirectory
      else .ok ((s.erase a.location).put b.location (.file content))

def remove (s : Store) (p : Path) : Except FileError Store := do
  let q ← s.place p
  if q.name.isNone then .error .isADirectory
  else match ← s.itemAt q with
    | none => .error .notFound
    | some .directory => .error .isADirectory
    | some (.file _) => if q.asksDirectory then .error .notADirectory else .ok (s.erase q.location)

/-- A change that either fails and leaves the store as it is, or succeeds. -/
def change (s : Store) (r : Except FileError Store) : Except FileError Unit × Store :=
  match r with
  | .ok s => (.ok (), s)
  | .error e => (.error e, s)

/-- The answer to a request, and the store after it. -/
def answer {α : Type} (s : Store) : Request α → Except FileError α × Store
  | .read p => (s.read p, s)
  | .isDirectory p => (.ok (s.isDirectory p), s)
  | .isThere p => (.ok (s.isThere p), s)
  | .makeDirectory p => s.change (s.makeDirectory p)
  | .create p => s.change (s.openFile (fun _ => []) p)
  | .touch p => s.change (s.openFile id p)
  | .append p content => s.change (s.append p content)
  | .rename source target => s.change (s.rename source target)
  | .remove p => s.change (s.remove p)
  | .sync p => ((s.locate p).map fun _ => (), s)
  | .elapsed => (.ok 0, s)

end Store

/-- Runs a script on a store. -/
def Script.run {α : Type} : Script α → Store → α × Store
  | done a, s => (a, s)
  | ask r next, s => let (answer, s) := s.answer r; (next answer).run s

end SchemaTables
