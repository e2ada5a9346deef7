/-!
# Coordinates

Geometry is written over any type of coordinates with the operations of `Scalar`, so
that the same definitions run on floating-point numbers and can be read as exact
arithmetic on the reals. The class has operations only; what holds of them is stated
where it is used.

The instance for `Float` is IEEE double arithmetic, where the smaller or greater of a
number and something that is no number is the number, and a conversion to an integer
drops the fraction and stays within the integer's width.
-/

namespace Labeling

/-- The operations on coordinates that the geometry needs. -/
class Scalar (α : Type) extends Add α, Sub α, Mul α, Div α where
  /-- The coordinate of a pixel. -/
  ofInt : Int → α
  abs : α → α
  sqrt : α → α
  /-- The smaller of two coordinates. -/
  minimum : α → α → α
  /-- The greater of two coordinates. -/
  maximum : α → α → α
  /-- The least of several distances. -/
  least : List α → α
  le : α → α → Bool
  lt : α → α → Bool
  /-- Neither infinite nor undefined. -/
  isFinite : α → Bool
  /-- The integer part, towards zero, within 64 signed bits. -/
  toInt : α → Int
  /-- The integer part, from zero up, within 32 unsigned bits. -/
  toSize : α → Nat

namespace Scalar

variable {α : Type} [Scalar α]

/-- Zero. -/
def zero : α := ofInt 0

/-- One. -/
def one : α := ofInt 1

/-- Half of a whole number. -/
def half (n : Int) : α := ofInt n / ofInt 2

/-- Neither above nor below zero. -/
def isZero (a : α) : Bool := le a zero && le zero a

/-- The nearest coordinate between zero and one. -/
def clampUnit (a : α) : α := if lt a zero then zero else if lt one a then one else a

end Scalar

/-- The smaller of two numbers; something that is no number gives way. -/
def smallerFloat (a b : Float) : Float :=
  if a.isNaN then b else if b.isNaN then a else if b < a then b else a

/-- The greater of two numbers; something that is no number gives way. -/
def greaterFloat (a b : Float) : Float :=
  if a.isNaN then b else if b.isNaN then a else if a < b then b else a

instance : Scalar Float where
  ofInt := Float.ofInt
  abs := Float.abs
  sqrt := Float.sqrt
  minimum := smallerFloat
  maximum := greaterFloat
  least := List.foldl smallerFloat (1.0 / 0.0)
  le a b := a ≤ b
  lt a b := a < b
  isFinite := Float.isFinite
  toInt x := x.toModel.toInt64.toInt
  toSize x := x.toUInt32.toNat

end Labeling
