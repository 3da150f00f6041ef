import SchemaTables.CommandLine.Run
import Std.Time.DateTime.Timestamp

/-!
The program: runs a command line on the files of the machine. All that is decided here is how a request
is put to the machine, and which cause stands behind its errors.
-/

namespace SchemaTables.Machine

/-- The cause with a number of the system. Some of the machine's functions give the number with its sign
turned. -/
def causeOf (code : UInt32) (details : String) : FileError :=
  match code.toInt32.toInt.natAbs with
  | 2 => .notFound
  | 16 => .busy
  | 17 => .exists
  | 20 => .notADirectory
  | 21 => .isADirectory
  | 36 => .nameTooLong
  | n => .other (details ++ " (os error " ++ toString n ++ ")")

def cause : IO.Error → FileError
  | .alreadyExists _ code details | .noFileOrDirectory _ code details | .interrupted _ code details
  | .invalidArgument _ code details | .permissionDenied _ code details
  | .resourceExhausted _ code details | .inappropriateType _ code details
  | .noSuchThing _ code details | .otherError code details | .resourceBusy code details
  | .resourceVanished code details | .unsupportedOperation code details | .hardwareFault code details
  | .unsatisfiedConstraints code details | .illegalOperation code details
  | .protocolError code details | .timeExpired code details => causeOf code details
  | e => .other (toString e)

/-- Puts a request to the machine. The machine writes to its disk when it sees fit. -/
def ask (start : Nat) {α : Type} : Request α → IO α
  | .read p => do return (← IO.FS.readBinFile p.text).toList
  | .isDirectory p => do
    if p.text.isEmpty then return false else ((← IO.currentDir) / p.text).isDir
  | .isThere p => do
    if p.text.isEmpty then return false else ((← IO.currentDir) / p.text).pathExists
  | .makeDirectory p => IO.FS.createDir p.text
  | .create p => do let _ ← IO.FS.Handle.mk p.text .write
  | .touch p => do let _ ← IO.FS.Handle.mk p.text .append
  | .append p content => do
    let h ← IO.FS.Handle.mk p.text .append
    h.write ⟨content.toArray⟩
    h.flush
  | .rename source target => IO.FS.rename source.text target.text
  | .remove p => IO.FS.removeFile p.text
  | .sync _ => pure ()
  | .elapsed => do return (← IO.monoMsNow) - start

/-- Runs a script on the machine. -/
def run (start : Nat) {α : Type} : Script α → IO α
  | .done a => pure a
  | .ask request next => do
    let answer ← try Except.ok <$> ask start request catch e => pure (.error (cause e))
    run start (next answer)

/-- The name of a run: random but for the digits that tell that it is. -/
def freshName : IO String := do
  let random ← IO.getRandomBytes 16
  let digit (n : Nat) : Char := (Nat.toDigits 16 n).headD '0'
  let digits := random.toList.flatMap fun b => [digit (b.toNat / 16), digit (b.toNat % 16)]
  let digits := digits.mapIdx fun i c =>
    if i = 12 then '4' else if i = 16 then ['8', '9', 'a', 'b'].getD (c.toNat % 4) '8' else c
  let part (start length : Nat) := String.ofList ((digits.drop start).take length)
  return Text.joinWith "-" [part 0 8, part 8 4, part 12 4, part 16 4, part 20 12]

/-- Runs a command line and gives the exit code. -/
def runProgram (words : List String) : IO UInt32 := do
  let start ← IO.monoMsNow
  let now ← Std.Time.Timestamp.now
  let c : Circumstances := {
    startedAt := .ofNanoseconds now.toNanosecondsSinceUnixEpoch.val
    runId := ← freshName
    reportId := ← freshName }
  let answer ← run start (CommandLine.run words c)
  IO.print answer.output
  IO.eprint answer.errors
  return answer.exitCode.toUInt32

end SchemaTables.Machine

/-- Runs the command line that the program is called with. -/
def main (words : List String) : IO UInt32 := SchemaTables.Machine.runProgram words
