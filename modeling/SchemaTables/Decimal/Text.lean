import SchemaTables.Decimal.Shortest

/-!
How numbers are written in documents. Integers are written plainly. Other numbers take their shortest
digits, positional within a window of decimal exponents and scientific outside of it.
-/

namespace SchemaTables

namespace Decimal

/-- What a style decides about where the point goes. -/
structure Style where
  /-- The least decimal exponent that is written positionally. -/
  least : Int
  /-- The greatest decimal exponent that is written positionally. -/
  greatest : Int
  /-- What follows an integral number in positional form. -/
  integral : String
  /-- What stands before a positive exponent. -/
  plus : String

/-- Positional from `0.00001` to below `10 ^ 16`; the exponent of the scientific form has a sign. -/
def documentStyle : Style := ⟨-5, 15, ".0", "+"⟩

def digitText (n : Nat) : String := String.ofList (Nat.toDigits 10 n)

def zeros (n : Nat) : String := String.ofList (List.replicate n '0')

/-- The text of a positive decimal. -/
def Style.render (f : Style) (d : Decimal) : String :=
  let ds := Nat.toDigits 10 d.digits
  let count := ds.length
  let top : Int := d.exponent + (count : Int) - 1
  if f.least ≤ top ∧ top ≤ f.greatest then
    if 0 ≤ d.exponent then String.ofList ds ++ zeros d.exponent.toNat ++ f.integral
    else if 0 ≤ top then
      String.ofList (ds.take (top.toNat + 1)) ++ "." ++ String.ofList (ds.drop (top.toNat + 1))
    else "0." ++ zeros ((-top).toNat - 1) ++ String.ofList ds
  else
    let first := String.ofList (ds.take 1)
    let rest := String.ofList (ds.drop 1)
    let fraction := if rest.isEmpty then "" else "." ++ rest
    let sign := if 0 ≤ top then f.plus else "-"
    first ++ fraction ++ "e" ++ sign ++ digitText top.natAbs

end Decimal

/-- The text of a number, with the sign of zero kept. -/
def Binary64.render (f : Decimal.Style) (x : Binary64) : String :=
  let sign := if x.negative then "-" else ""
  if x.isZero then sign ++ "0" ++ f.integral
  else sign ++ f.render (Decimal.shortest x.mantissa x.exponent)

/-- The text of an integer. -/
def intText (n : Int) : String :=
  if n < 0 then "-" ++ Decimal.digitText n.natAbs else Decimal.digitText n.natAbs

end SchemaTables
