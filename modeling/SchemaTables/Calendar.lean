/-!
Days of the Gregorian calendar, carried on without a gap in both directions.
-/

namespace SchemaTables

structure Day where
  year : Int
  month : Nat
  day : Nat
deriving DecidableEq, Repr

namespace Day

def isLeapYear (year : Int) : Bool := year % 4 = 0 ∧ (year % 100 ≠ 0 ∨ year % 400 = 0)

def monthLength (year : Int) (month : Nat) : Nat :=
  if month = 2 then if isLeapYear year then 29 else 28
  else if [4, 6, 9, 11].contains month then 30
  else 31

/-- A day that the calendar has. -/
def isValid (d : Day) : Bool :=
  1 ≤ d.month ∧ d.month ≤ 12 ∧ 1 ≤ d.day ∧ d.day ≤ monthLength d.year d.month

def next (d : Day) : Day :=
  if d.day < monthLength d.year d.month then { d with day := d.day + 1 }
  else if d.month < 12 then ⟨d.year, d.month + 1, 1⟩
  else ⟨d.year + 1, 1, 1⟩

def previous (d : Day) : Day :=
  if 1 < d.day then { d with day := d.day - 1 }
  else if 1 < d.month then ⟨d.year, d.month - 1, monthLength d.year (d.month - 1)⟩
  else ⟨d.year - 1, 12, 31⟩

/-- The day that is a number of days after the first of March of the year zero. Years are counted from
March, in periods of 400 years, so that the day that only some years have is the last of its year. -/
def ofNumber (n : Int) : Day :=
  let period := n / 146097
  let d := (n % 146097).toNat
  let year := (d - d / 1460 + d / 36524 - d / 146096) / 365
  let d := d - (365 * year + year / 4 - year / 100)
  let month := (5 * d + 2) / 153
  let day := d - (153 * month + 2) / 5 + 1
  let year := period * 400 + year
  if month < 10 then ⟨year, month + 3, day⟩ else ⟨year + 1, month - 9, day⟩

end Day

end SchemaTables
