/-!
# The shortest decimal that reads back as a floating-point number

A finite double is `m · 2^q`. The reals that round to it form an interval around
it, whose ends belong to it exactly when `m` is even. `Float.shortest` looks for a
decimal `d · 10^k` with the fewest significant digits inside that interval, and of
two such decimals takes the one nearer to the number. A tie goes to the even digit.

All arithmetic is on natural numbers and exact. The number itself lies between two
neighbours on the grid of the multiples of `10^k`; if any point of the grid lies in
the interval, so does one of these two.
-/

namespace Labeling

/-- A positive decimal number `digits · 10^exponent`. -/
structure Decimal where
  digits : Nat
  exponent : Int
  deriving DecidableEq, Repr

/-- A positive binary number `significand · 2^exponent`, with what is needed to know
which reals round to it: whether the next smaller double is only half as far away
as the next larger one. -/
structure Binary where
  significand : Nat
  exponent : Int
  lowerIsCloser : Bool
  deriving DecidableEq, Repr

namespace Binary

/-- The magnitude of a finite double, read from its bits. -/
def ofBits (bits : UInt64) : Binary :=
  let fraction : Nat := bits.toNat % Nat.pow 2 52
  let biased : Nat := bits.toNat / Nat.pow 2 52 % Nat.pow 2 11
  if biased = 0 then ⟨fraction, -1074, false⟩
  else ⟨fraction + Nat.pow 2 52, Int.ofNat biased - 1075, fraction = 0 && 1 < biased⟩

/-- A number as a quotient of naturals, together with the two ends of the interval
of reals that round to it, over the same denominator. -/
structure Interval where
  lower : Nat
  value : Nat
  upper : Nat
  denominator : Nat
  /-- The two ends belong to the interval. -/
  closed : Bool
  deriving Repr

/-- The interval of reals that round to a binary number. -/
def interval (b : Binary) : Interval :=
  let quarter := b.exponent - 2
  let up := Nat.pow 2 quarter.toNat
  let below := if b.lowerIsCloser then 1 else 2
  { lower := (4 * b.significand - below) * up
    value := 4 * b.significand * up
    upper := (4 * b.significand + 2) * up
    denominator := Nat.pow 2 (-quarter).toNat
    closed := b.significand % 2 = 0 }

namespace Interval

/-- The interval with all its numbers divided by `10^k`. -/
def scale (i : Interval) (k : Int) : Interval :=
  let up := Nat.pow 10 (-k).toNat
  { i with
    lower := i.lower * up, value := i.value * up, upper := i.upper * up
    denominator := i.denominator * Nat.pow 10 k.toNat }

/-- The integer `n` lies in the interval. -/
def contains (i : Interval) (n : Nat) : Bool :=
  if i.closed then i.lower ≤ n * i.denominator && n * i.denominator ≤ i.upper
  else i.lower < n * i.denominator && n * i.denominator < i.upper

/-- The integer of the interval that is nearest to its value, if it has one. -/
def nearestInteger? (i : Interval) : Option Nat :=
  let below := i.value / i.denominator
  let above := below + 1
  let fromBelow := i.value - below * i.denominator
  let fromAbove := above * i.denominator - i.value
  match i.contains below, i.contains above with
  | false, false => none
  | true, false => some below
  | false, true => some above
  | true, true =>
    if fromBelow < fromAbove then some below
    else if fromAbove < fromBelow then some above
    else if below % 2 = 0 then some below else some above

end Interval

/-- The decimal exponent of the first significant digit of a quotient: the greatest
`e` with `10^e · denominator ≤ value`. The estimate from the binary lengths is at
most one off, so at most two corrections are needed; the fuel allows for more. -/
def leadingExponent (i : Interval) : Int :=
  let estimate : Int :=
    ((Nat.log2 i.value : Int) - (Nat.log2 i.denominator : Int)) * 30103 / 100000
  go 8 (estimate - 2)
where
  /-- Move up while the next power of ten still does not exceed the value. -/
  go : Nat → Int → Int
    | 0, e => e
    | fuel + 1, e =>
      let next := e + 1
      if Nat.pow 10 next.toNat * i.denominator ≤ i.value * Nat.pow 10 (-next).toNat then
        go fuel next
      else e

/-- Try the grids of one digit, two digits, and so on. -/
def shortestFrom (i : Interval) (leading : Int) : Nat → Nat → Decimal
  | 0, count => ⟨i.value * Nat.pow 10 (count - leading).toNat / i.denominator, leading - count⟩
  | fuel + 1, count =>
    let k := leading - count
    match (i.scale k).nearestInteger? with
    | some digits => ⟨digits, k⟩
    | none => shortestFrom i leading fuel (count + 1)

end Binary

/-- Remove the zeros at the end of the digits. -/
def Decimal.trimmed (d : Decimal) : Decimal :=
  go 20 d
where
  /-- One zero a step; twenty steps are more than a double has digits. -/
  go : Nat → Decimal → Decimal
    | 0, d => d
    | fuel + 1, d =>
      if d.digits ≠ 0 ∧ d.digits % 10 = 0 then go fuel ⟨d.digits / 10, d.exponent + 1⟩ else d

/-- The shortest decimal that reads back as the magnitude of a finite, nonzero double. -/
def Binary.shortest (b : Binary) : Decimal :=
  let i := b.interval
  (Binary.shortestFrom i (Binary.leadingExponent i) 17 0).trimmed

end Labeling
