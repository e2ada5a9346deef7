import Labeling.Geometry.Scalar

/-!
# Points, pixels and distances

A `Point` is a position with coordinates of any scalar type, either in the pixels of
the image (natural) or in those of the screen (display). A `Pixel` is a position with
integer coordinates, as annotations are stored.

`segmentDistance` is the distance to a segment: the point is projected on the line
through the segment, and the projection is held between its two ends.
-/

namespace Labeling

/-- A position in the image or on the screen. -/
structure Point (α : Type) where
  x : α
  y : α
  deriving Repr

/-- A position in whole image pixels. -/
structure Pixel where
  x : Int
  y : Int
  deriving DecidableEq, Repr, Inhabited

/-- The size of an image in pixels. -/
structure Dims where
  width : Nat
  height : Nat
  deriving DecidableEq, Repr, Inhabited

/-- The size with some sides, of which none is zero. -/
def Dims.ofSides? (width height : Nat) : Option Dims :=
  if width = 0 ∨ height = 0 then none else some ⟨width, height⟩

variable {α : Type} [Scalar α]

/-- The point at a pixel. -/
def Pixel.point (p : Pixel) : Point α := ⟨Scalar.ofInt p.x, Scalar.ofInt p.y⟩

namespace Point

/-- The squared distance of two points. -/
def distanceSq (p q : Point α) : α :=
  (p.x - q.x) * (p.x - q.x) + (p.y - q.y) * (p.y - q.y)

/-- The distance of two points. -/
def distance (p q : Point α) : α := Scalar.sqrt (p.distanceSq q)

/-- The pixel at a point: both fractions are dropped. -/
def pixel (p : Point α) : Pixel := ⟨Scalar.toInt p.x, Scalar.toInt p.y⟩

end Point

/-- The point of the segment from `a` to `b` that is nearest to `p`. -/
def nearestOnSegment (p a b : Point α) : Point α :=
  let dx := b.x - a.x
  let dy := b.y - a.y
  let lengthSq := dx * dx + dy * dy
  if Scalar.isZero lengthSq then a
  else
    let t := Scalar.clampUnit (((p.x - a.x) * dx + (p.y - a.y) * dy) / lengthSq)
    ⟨a.x + t * dx, a.y + t * dy⟩

/-- The distance of `p` to the segment from `a` to `b`. -/
def segmentDistance (p a b : Point α) : α := p.distance (nearestOnSegment p a b)

end Labeling
