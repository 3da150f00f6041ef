import SchemaTables.Calendar

/-!
Moments: times of a day at Greenwich. They are read and written as RFC 3339 has it; a second numbered 60
is a leap second wherever it stands.
-/

namespace SchemaTables

structure Moment where
  day : Day
  hour : Nat
  minute : Nat
  second : Nat
  nanosecond : Nat := 0
deriving DecidableEq, Repr

namespace Moment

/-! Reading -/

/-- The number that the first `n` characters are. -/
def digits? (n : Nat) (s : List Char) : Option (Nat × List Char) :=
  let ds := s.take n
  if ds.length = n ∧ ds.all Char.isDigit then
    some (ds.foldl (fun m c => 10 * m + (c.toNat - '0'.toNat)) 0, s.drop n)
  else none

def skip? (c : Char) : List Char → Option (List Char)
  | d :: s => if c = d then some s else none
  | [] => none

def day? (s : List Char) : Option (Day × List Char) := do
  let (year, s) ← digits? 4 s
  let (month, s) ← digits? 2 (← skip? '-' s)
  let (day, s) ← digits? 2 (← skip? '-' s)
  let d : Day := ⟨year, month, day⟩
  if d.isValid then some (d, s) else none

/-- A fraction of a second in nanoseconds. Digits beyond those are passed over. -/
def fraction? : List Char → Option (Nat × List Char)
  | '.' :: s => do
    let ds := (s.takeWhile Char.isDigit).take 9
    if ds.isEmpty then none
    else
      let (n, _) ← digits? ds.length s
      return (n * Nat.pow 10 (9 - ds.length), s.dropWhile Char.isDigit)
  | s => some (0, s)

/-- What local time is ahead of Greenwich, in minutes. -/
def offset? (s : List Char) : Option (Int × List Char) := do
  let (sign, s) ← sign? s
  if sign = 0 then return (0, s)
  let (hours, s) ← digits? 2 s
  let (minutes, s) ← digits? 2 (← skip? ':' s)
  if hours < 24 ∧ minutes < 60 then return (sign * ((60 * hours + minutes : Nat) : Int), s) else none
where
  sign? : List Char → Option (Int × List Char)
    | 'Z' :: s | 'z' :: s => some (0, s)
    | '+' :: s => some (1, s)
    | '-' :: s | '\u2212' :: s => some (-1, s)
    | _ => none

/-- The same moment where local time was ahead by a number of minutes, less than a day. -/
def atGreenwich (m : Moment) (ahead : Int) : Moment :=
  let t : Int := 60 * m.hour + m.minute - ahead
  let day := if t < 0 then m.day.previous else if 1440 ≤ t then m.day.next else m.day
  let t := (t % 1440).toNat
  { m with day := day, hour := t / 60, minute := t % 60 }

/-- Reads a moment. -/
def read (text : String) : Option Moment := do
  let (day, s) ← day? text.toList
  let s ← match s with
    | 'T' :: s | 't' :: s | ' ' :: s => some s
    | _ => none
  let (hour, s) ← digits? 2 s
  let (minute, s) ← digits? 2 (← skip? ':' s)
  let (second, s) ← digits? 2 (← skip? ':' s)
  let (nanosecond, s) ← fraction? s
  let (ahead, s) ← offset? s
  if hour < 24 ∧ minute < 60 ∧ second ≤ 60 ∧ s.isEmpty then
    return (⟨day, hour, minute, second, nanosecond⟩ : Moment).atGreenwich ahead
  else none

/-- The moment a number of nanoseconds after the beginning of 1970. -/
def ofNanoseconds (n : Int) : Moment :=
  let seconds := n / 1000000000
  let second := (seconds % 86400).toNat
  { day := .ofNumber (seconds / 86400 + 719468)
    hour := second / 3600
    minute := second / 60 % 60
    second := second % 60
    nanosecond := (n % 1000000000).toNat }

/-! Writing -/

/-- A number with at least `n` digits. -/
def padded (n m : Nat) : String :=
  let ds := Nat.toDigits 10 m
  String.ofList (List.replicate (n - ds.length) '0' ++ ds)

/-- Four digits; a year outside of their range has a sign in front. -/
def yearText (year : Int) : String :=
  if year < 0 then "-" ++ padded 4 year.natAbs
  else if year < 10000 then padded 4 year.natAbs
  else "+" ++ padded 4 year.natAbs

def dayText (m : Moment) : String :=
  yearText m.day.year ++ "-" ++ padded 2 m.day.month ++ "-" ++ padded 2 m.day.day

/-- The fraction of the second in as few groups of three digits as will do. -/
def fractionText (m : Moment) : String :=
  let n := m.nanosecond
  if n = 0 then ""
  else if n % 1000000 = 0 then "." ++ padded 3 (n / 1000000)
  else if n % 1000 = 0 then "." ++ padded 6 (n / 1000)
  else "." ++ padded 9 n

/-- The moment as a text. -/
def text (m : Moment) : String :=
  m.dayText ++ "T" ++ padded 2 m.hour ++ ":" ++ padded 2 m.minute ++ ":" ++ padded 2 m.second ++
    m.fractionText ++ "+00:00"

/-- The moment, to the second, as a part of a file name. -/
def fileText (m : Moment) : String :=
  m.dayText ++ "T" ++ padded 2 m.hour ++ "-" ++ padded 2 m.minute ++ "-" ++ padded 2 m.second ++ "Z"

end Moment

end SchemaTables
