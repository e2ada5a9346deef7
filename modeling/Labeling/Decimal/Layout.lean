import Labeling.Decimal.Shortest

/-!
# How a decimal number is written

A number is written positionally when the power of ten of its first digit lies in a
given range, and in scientific form outside it. `DecimalLayout` holds the decisions,
and `Json.numberLayout` in the printer fixes them.
-/

namespace Labeling

/-- The decisions about the written form of a decimal number. -/
structure DecimalLayout where
  /-- The least power of ten of the first digit that is written positionally. -/
  least : Int
  /-- The greatest power of ten of the first digit that is written positionally. -/
  greatest : Int
  /-- What a positional number without a fractional part ends in. -/
  integral : String
  /-- What stands before a nonnegative exponent. -/
  plus : String

namespace Decimal

/-- The digits as text. -/
def digitText (d : Decimal) : List Char := (toString d.digits).toList

/-- The power of ten of the first digit. -/
def leading (d : Decimal) : Int := d.exponent + (d.digitText.length : Int) - 1

/-- Positional form: zeros fill the gap between the digits and the point. -/
def positional (n : DecimalLayout) (d : Decimal) : String :=
  let digits := d.digitText
  if 0 ≤ d.exponent then
    String.ofList (digits ++ List.replicate d.exponent.toNat '0') ++ n.integral
  else if 0 ≤ d.leading then
    let whole := (d.leading + 1).toNat
    String.ofList (digits.take whole ++ '.' :: digits.drop whole)
  else
    String.ofList ('0' :: '.' :: List.replicate (-d.leading - 1).toNat '0' ++ digits)

/-- Scientific form: one digit, the other digits after a point, and the exponent. -/
def scientific (n : DecimalLayout) (d : Decimal) : String :=
  let mantissa := match d.digitText with
    | [] => ""
    | [c] => String.ofList [c]
    | c :: rest => String.ofList (c :: '.' :: rest)
  let sign := if 0 ≤ d.leading then n.plus else ""
  mantissa ++ "e" ++ sign ++ toString d.leading

/-- The written form of a positive decimal number. -/
def write (n : DecimalLayout) (d : Decimal) : String :=
  if n.least ≤ d.leading ∧ d.leading ≤ n.greatest then d.positional n else d.scientific n

end Decimal

end Labeling
