import SchemaTables.Json.Basic

/-!
Reading the numbers of a document. The digits are gathered into a significand of at most 64 bits; once
it is full, further digits only count as powers of ten. The value is then the rounded significand times
or divided by the rounded power of ten, one rounding each, and a number that is too large is refused.
-/

namespace SchemaTables.Json

/-- The greatest significand. -/
def maxSignificand : Nat := 18446744073709551615

/-- The significand with one more digit, unless it is full. -/
def pushDigit? (significand digit : Nat) : Option Nat :=
  let n := significand * 10 + digit
  if n ≤ maxSignificand then some n else none

def isDigit (c : Char) : Bool := '0' ≤ c && c ≤ '9'

def digitValue (c : Char) : Nat := c.toNat - '0'.toNat

/-- The significand of the digits before the point and the number of digits that were too many. -/
def wholeDigits (significand : Nat) : List Char → Nat × Nat
  | [] => (significand, 0)
  | c :: s =>
    match pushDigit? significand (digitValue c) with
    | some n => wholeDigits n s
    | none => (significand, s.length + 1)

/-- The significand after the digits behind the point, and how many of them went into it. -/
def fractionDigits (significand : Nat) : List Char → Nat × Nat
  | [] => (significand, 0)
  | c :: s =>
    match pushDigit? significand (digitValue c) with
    | some n => let (m, k) := fractionDigits n s; (m, k + 1)
    | none => (significand, 0)

/-- Divides by `10 ^ 308` until what is left of the exponent has a rounded power of ten. -/
def scaleDown : Nat → Binary64 → Nat → Option Binary64
  | 0, x, _ => some x
  | fuel + 1, x, k =>
    if k ≤ 308 then (Binary64.ofDecimal false 1 k).bind x.dividedBy
    else if x.isZero then some x
    else do
      let y ← (Binary64.ofDecimal false 1 308).bind x.dividedBy
      scaleDown fuel y (k - 308)

/-- The significand times a power of ten. -/
def scale (negative : Bool) (significand : Nat) (exponent : Int) : Option Binary64 := do
  let x ← Binary64.ofNat significand
  let y ←
    if 0 ≤ exponent then
      if exponent ≤ 308 then (Binary64.ofDecimal false 1 exponent).bind x.times
      else if x.isZero then some x else none
    else scaleDown 10 x (-exponent).toNat
  return { y with negative := negative }

/-- The parts of a number as written. -/
structure NumberText where
  negative : Bool
  whole : List Char
  /-- The digits behind the point; nothing when there is no point. -/
  fraction : Option (List Char)
  /-- The exponent; nothing when none is written. -/
  exponent : Option Int

/-- An integer that does not fit, or has a minus sign before zero, is read as a binary number. -/
def NumberText.value (t : NumberText) : Option Number :=
  let (significand, dropped) := wholeDigits 0 t.whole
  match t.fraction, t.exponent with
  | none, none =>
    if dropped = 0 then
      if t.negative then
        if significand = 0 ∨ Nat.pow 2 63 < significand then
          (Binary64.ofNat significand).map fun x => .float { x with negative := true }
        else some (.int (-(significand : Int)))
      else some (.int significand)
    else (scale t.negative significand dropped).map .float
  | fraction, exponent =>
    let (significand, taken) := fractionDigits significand (fraction.getD [])
    (scale t.negative significand ((dropped : Int) - taken + exponent.getD 0)).map .float

/-- Reads the digits at the front. -/
def spanDigits (s : List Char) : List Char × List Char := s.span isDigit

/-- Reads the exponent that follows an `e`. -/
def exponentText? (s : List Char) : Option (Int × List Char) :=
  let (negative, s) := match s with
    | '-' :: s => (true, s)
    | '+' :: s => (false, s)
    | s => (false, s)
  match spanDigits s with
  | ([], _) => none
  | (ds, rest) =>
    let n : Int := (ds.foldl (fun n c => n * 10 + digitValue c) 0 : Nat)
    some (if negative then -n else n, rest)

/-- Reads a number: no zero stands before another digit, a point has digits on both sides. -/
def numberText? (s : List Char) : Option (NumberText × List Char) := do
  let (negative, s) := match s with
    | '-' :: s => (true, s)
    | s => (false, s)
  let (whole, s) := spanDigits s
  if whole = [] ∨ (whole.head? = some '0' ∧ 1 < whole.length) then none
  let (fraction, s) ← match s with
    | '.' :: s =>
      match spanDigits s with
      | ([], _) => none
      | (ds, s) => some (some ds, s)
    | s => some (none, s)
  let (exponent, s) ← match s with
    | 'e' :: s | 'E' :: s => (exponentText? s).map fun (n, s) => (some n, s)
    | s => some (none, s)
  return (⟨negative, whole, fraction, exponent⟩, s)

def number? (s : List Char) : Option (Number × List Char) := do
  let (t, s) ← numberText? s
  let n ← t.value
  return (n, s)

end SchemaTables.Json
