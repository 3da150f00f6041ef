import SchemaTables.Decimal.Binary64

/-!
The shortest decimal text of a binary number. For one digit, two digits and so on, the two decimals of
that length around the number are tried; the first length at which one of them reads back as the number
wins, the nearer of the two is taken, and the even one when both are equally near.
-/

namespace SchemaTables

/-- The decimal `digits · 10 ^ exponent`. -/
structure Decimal where
  digits : Nat
  exponent : Int
deriving DecidableEq, Repr

namespace Decimal

/-- The value as a fraction. -/
def fraction (d : Decimal) : Nat × Nat :=
  if 0 ≤ d.exponent then (d.digits * Nat.pow 10 d.exponent.toNat, 1)
  else (d.digits, Nat.pow 10 (-d.exponent).toNat)

/-- The greatest `k` with `10 ^ k ≤ num / den`, searched downwards from `k`. -/
def floorLog10 (num den : Nat) : Nat → Int → Int
  | 0, k => k
  | fuel + 1, k =>
    let (n, d) := fraction ⟨1, k⟩
    if n * den ≤ num * d then k else floorLog10 num den fuel (k - 1)

/-- The distance of two fractions, as a fraction. -/
def distance (a b : Nat × Nat) : Nat × Nat :=
  let x := a.1 * b.2
  let y := b.1 * a.2
  (if x ≤ y then y - x else x - y, a.2 * b.2)

/-- Whether the decimal is read as the given mantissa and exponent. -/
def readsAs (d : Decimal) (m : Nat) (e : Int) : Bool :=
  let (n, q) := d.fraction
  Binary64.nearest n q == some (m, e)

/-- Of the two decimals with `count` digits around the number, the best that reads back. -/
def around? (m : Nat) (e : Int) (value : Nat × Nat) (top : Int) (count : Nat) : Option Decimal :=
  let place := top - ((count - 1 : Nat) : Int)
  let (n, d) := fraction ⟨1, place⟩
  let low := (value.1 * d) / (value.2 * n)
  let below : Decimal := ⟨low, place⟩
  let above : Decimal := ⟨low + 1, place⟩
  match below.readsAs m e, above.readsAs m e with
  | false, false => none
  | true, false => some below
  | false, true => some above
  | true, true =>
    let x := distance below.fraction value
    let y := distance above.fraction value
    if x.1 * y.2 < y.1 * x.2 then some below
    else if y.1 * x.2 < x.1 * y.2 then some above
    else some (if low % 2 = 0 then below else above)

/-- Drops zeros at the end. -/
def trimZeros : Nat → Decimal → Decimal
  | 0, d => d
  | fuel + 1, d =>
    if d.digits % 10 = 0 ∧ d.digits ≠ 0 then trimZeros fuel ⟨d.digits / 10, d.exponent + 1⟩ else d

/-- The shortest decimal that reads as a number other than zero; seventeen digits always do. -/
def shortest (m : Nat) (e : Int) : Decimal :=
  let x : Binary64 := ⟨false, m, e⟩
  let value := x.fraction
  let top := floorLog10 value.1 value.2 700 (Binary64.floorLog2 value.1 value.2 * 30103 / 100000 + 1)
  match (List.range 17).findSome? fun k => around? m e value top (k + 1) with
  | some d => trimZeros 20 d
  | none => ⟨m, e⟩

end Decimal

end SchemaTables
