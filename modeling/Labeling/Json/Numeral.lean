import Labeling.Json.Value

/-!
# Numerals of JSON text

A numeral is the spelling of a number: a sign, the digits before the point, the
digits after it, and an exponent. `Numeral.value?` says which number it denotes.

Digits are taken up as long as the integer they spell fits 64 bits. A numeral
without point and exponent that is taken up completely is an integer, unless it is
negative and below the least signed integer, or minus zero. Every other numeral is
a floating-point number: the integer taken up, times or divided by a power of ten.
Digits before the point that are left over count as a power of ten each, and digits
after the point that are left over do not count. A number beyond the largest double
has no value; one too small for a double is zero.
-/

namespace Labeling

/-- The spelling of a number. Digits are numbers below ten. -/
structure Numeral where
  negative : Bool
  whole : List Nat
  fraction : List Nat
  /-- Whether the exponent is negative, and its digits. -/
  exponent : Option (Bool × List Nat)
  deriving Repr

namespace Numeral

/-- The greatest exponent that is told apart from an unbounded one. -/
def exponentBound : Nat := 2147483647

/-- The number spelled by decimal digits. -/
def ofDigits (digits : List Nat) : Nat :=
  digits.foldl (fun n d => 10 * n + d) 0

/-- Take up digits while the number fits 64 bits, and return those left over. -/
def absorb (n : Nat) : List Nat → Nat × List Nat
  | [] => (n, [])
  | d :: rest => if 10 * n + d < Nat.pow 2 64 then absorb (10 * n + d) rest else (n, d :: rest)

/-- A power of ten up to `10^308`. -/
def powerOfTen (e : Nat) : Float := Float.ofScientific 1 false e

/-- Divide by a power of ten, in steps of at most 308. Zero stays zero. -/
def divide (x : Float) (e : Nat) : Float :=
  if h : e ≤ 308 then x / powerOfTen e
  else if x == 0 then x
  else divide (x / powerOfTen 308) (e - 308)
termination_by e

/-- Multiply by a power of ten; none if the result is beyond the largest double. -/
def multiply? (x : Float) (e : Nat) : Option Float :=
  if e ≤ 308 then
    let product := x * powerOfTen e
    if product.isInf then none else some product
  else if x == 0 then some x
  else none

/-- Scale an integer by a power of ten. -/
def scale? (significand : Nat) (exponent : Int) : Option Float :=
  let x := Float.ofNat significand
  if 0 ≤ exponent then multiply? x exponent.toNat else some (divide x (-exponent).toNat)

/-- The magnitude of a numeral as a floating-point number. -/
def magnitude? (n : Numeral) : Option Float :=
  let (whole, wholeRest) := absorb 0 n.whole
  let (significand, fractionRest) := absorb whole n.fraction
  let shift : Int := wholeRest.length - (n.fraction.length - fractionRest.length : Nat)
  match n.exponent with
  | none => scale? significand shift
  | some (negative, digits) =>
    let e := ofDigits digits
    if exponentBound < e then
      if negative || significand = 0 then some 0 else none
    else scale? significand (if negative then shift - e else shift + e)

/-- The number that a numeral denotes. -/
def value? (n : Numeral) : Option Json :=
  let (whole, wholeRest) := absorb 0 n.whole
  let signed : Float → Json := fun x => .float (if n.negative then -x else x)
  if n.fraction.isEmpty && n.exponent.isNone && wholeRest.isEmpty then
    if !n.negative then some (.int whole)
    else if whole = 0 || Nat.pow 2 63 < whole then some (signed (Float.ofNat whole))
    else some (.int (-whole))
  else n.magnitude?.map signed

end Numeral

end Labeling
