/-!
Finite binary floating-point numbers of 64 bits, as a sign, a mantissa and a power of two. Everything
is done in natural numbers: rounding takes a quotient to the nearest representable number, ties to the
even mantissa, and products and quotients are the exact ones rounded once.
-/

namespace SchemaTables

/-- The number `± mantissa · 2 ^ exponent`. -/
structure Binary64 where
  negative : Bool
  mantissa : Nat
  exponent : Int
deriving DecidableEq, Repr, Inhabited

namespace Binary64

/-- The least exponent; numbers below the normal range are written with it. -/
def minExponent : Int := -1074

/-- The greatest exponent. -/
def maxExponent : Int := 971

/-- A normal mantissa has this many bits. -/
def precision : Nat := 53

/-- `num / den` rounded to a natural number, a tie to the even neighbour. -/
def nearestNat (num den : Nat) : Nat :=
  let q := num / den
  let r := num % den
  if 2 * r < den then q
  else if den < 2 * r then q + 1
  else if q % 2 = 0 then q else q + 1

/-- The quotient `(num / den) / 2 ^ e` as a fraction of natural numbers. -/
def scaled (num den : Nat) (e : Int) : Nat × Nat :=
  if 0 ≤ e then (num, den * Nat.pow 2 e.toNat) else (num * Nat.pow 2 (-e).toNat, den)

/-- The greatest `k` with `2 ^ k ≤ num / den`, for positive `num` and `den`. -/
def floorLog2 (num den : Nat) : Int :=
  let k : Int := (num.log2 : Int) - den.log2
  let (n, d) := scaled num den k
  if d ≤ n then k else k - 1

/-- The mantissa and exponent nearest to `num / den`; nothing when it is too large. -/
def nearest (num den : Nat) : Option (Nat × Int) :=
  if num = 0 then some (0, minExponent)
  else
    let e := max (floorLog2 num den - (precision - 1 : Nat)) minExponent
    let (n, d) := scaled num den e
    let m := nearestNat n d
    let (m, e) := if m = Nat.pow 2 precision then (Nat.pow 2 (precision - 1), e + 1) else (m, e)
    if e ≤ maxExponent then some (m, e) else none

def ofQuotient (negative : Bool) (num den : Nat) : Option Binary64 :=
  (nearest num den).map fun (m, e) => ⟨negative, m, e⟩

/-- The number nearest to `± digits · 10 ^ exponent`. Exponents far out of range are not expanded. -/
def ofDecimal (negative : Bool) (digits : Nat) (exponent : Int) : Option Binary64 :=
  if digits = 0 then some ⟨negative, 0, minExponent⟩
  else
    let width : Int := (digits.log2 : Int) / 3
    if 400 < exponent then none
    else if exponent + width < -800 then some ⟨negative, 0, minExponent⟩
    else if 0 ≤ exponent then ofQuotient negative (digits * Nat.pow 10 exponent.toNat) 1
    else ofQuotient negative digits (Nat.pow 10 (-exponent).toNat)

def ofNat (n : Nat) : Option Binary64 := ofQuotient false n 1

def ofInt (n : Int) : Option Binary64 := ofQuotient (n < 0) n.natAbs 1

def isZero (x : Binary64) : Bool := x.mantissa = 0

/-- The magnitude as a fraction. -/
def fraction (x : Binary64) : Nat × Nat :=
  if 0 ≤ x.exponent then (x.mantissa * Nat.pow 2 x.exponent.toNat, 1)
  else (x.mantissa, Nat.pow 2 (-x.exponent).toNat)

/-- The rounded product; nothing when it is too large. -/
def times (x y : Binary64) : Option Binary64 :=
  let (a, b) := x.fraction
  let (c, d) := y.fraction
  ofQuotient (x.negative != y.negative) (a * c) (b * d)

/-- The rounded quotient by a number other than zero. -/
def dividedBy (x y : Binary64) : Option Binary64 :=
  let (a, b) := x.fraction
  let (c, d) := y.fraction
  ofQuotient (x.negative != y.negative) (a * d) (b * c)

end Binary64

end SchemaTables
