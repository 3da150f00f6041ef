import SchemaTables.Files.Whole
import SchemaTables.Json.Printer
import SchemaTables.Json.Record
import SchemaTables.Moment
import SchemaTables.Sha256

/-!
The directory of a run. Each run has one of its own, named for its start, with the options it was
started with, the digest of its input, its log and its report. An input that cannot be read stops the
run before there is a directory.
-/

namespace SchemaTables

open Json

/-- Why the record of a run cannot be kept. -/
inductive RecordingError where
  | input (path : Path) (cause : FileError)
  | file (cause : FileError)
  /-- The program has a log already. -/
  | secondLog
deriving DecidableEq, Repr

def RecordingError.message : RecordingError → String
  | input p cause => "cannot fingerprint input " ++ p.text ++ ": " ++ cause.message
  | file cause => "io error: " ++ cause.message
  | secondLog => "logging error: a global default trace dispatcher has already been set"

/-- What is known of a run when it starts. -/
structure RunStart where
  runId : String
  startedAt : Moment
  /-- The name of the command. -/
  command : String
  /-- The directory with the directories of all runs. -/
  runDir : Path
  /-- The document that the run is about. -/
  input : Option Path := none
  options : Json

/-- A document and the digest of its content. -/
structure Fingerprint where
  path : Path
  sha256 : String
deriving DecidableEq, Repr

/-- The version of the program. -/
def programVersion : String := "0.1.0"

/-- The files of a run. -/
structure RunFiles where
  root : Path
deriving DecidableEq, Repr

namespace RunFiles

def configuration (r : RunFiles) : Path := r.root.join ⟨"config.json"⟩
def log (r : RunFiles) : Path := r.root.join ⟨"logs.ndjson"⟩
def report (r : RunFiles) : Path := r.root.join ⟨"report.json"⟩

end RunFiles

namespace RunStart

def files (s : RunStart) : RunFiles :=
  ⟨s.runDir.join ⟨s.startedAt.fileText ++ "__run_" ++ s.runId⟩⟩

/-- The digest of the input. -/
def fingerprint (s : RunStart) : Task RecordingError (Option Fingerprint) :=
  match s.input with
  | none => pure none
  | some p => do
    let content ← Task.request (.input p) (.read p)
    return some ⟨p, Sha256.hex content⟩

/-- The start of a run as a document. The state of version control is not looked at. -/
def toJson (s : RunStart) (input : Option Fingerprint) : Json :=
  .obj ([("run_id", .str s.runId), ("started_at", .str s.startedAt.text), ("command", .str s.command),
    ("cli_version", .str programVersion)] ++
    whenSome "input"
      (fun f => .obj [("path", ofPath f.path), ("sha256", .str f.sha256)]) input ++
    [("options", s.options.sorted), ("git", .obj [("commit", .null), ("dirty", .null)])])

/-- Makes the directory of a run. -/
def begin (s : RunStart) : Task RecordingError RunFiles := do
  let input ← s.fingerprint
  let r := s.files
  (Files.makeDirectories r.root).lift .file
  (Files.writeText r.configuration (s.toJson input).report).lift .file
  Task.request .file (.touch r.log)
  return r

end RunStart

namespace RunFiles

def writeReport (r : RunFiles) (v : Json) : Task RecordingError Unit :=
  (Files.writeText r.report v.report).lift .file

/-- Writes a text under a name and gives its path. -/
def writeMarkdown (r : RunFiles) (name text : String) : Task RecordingError Path := do
  let p := r.root.join ⟨name⟩
  (Files.writeText p text).lift .file
  return p

end RunFiles

end SchemaTables
