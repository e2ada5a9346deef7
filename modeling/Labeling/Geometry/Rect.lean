import Labeling.Geometry.Point

/-!
# Rectangles

A rectangle is given by its top-left corner and its size. While a corner of it is
dragged its width and height may become negative; `Rect.normalized` gives the same
rectangle with a size that is not negative.
-/

namespace Labeling

/-- A rectangle with sides along the axes. -/
structure Rect (α : Type) where
  x : α
  y : α
  width : α
  height : α
  deriving Repr

/-- One of the four corners of a rectangle. -/
structure Corner where
  right : Bool
  bottom : Bool
  deriving DecidableEq, Repr

/-- The corners in the order in which their handles are shown. -/
def Corner.all : List Corner := [⟨false, false⟩, ⟨true, false⟩, ⟨false, true⟩, ⟨true, true⟩]

namespace Rect

variable {α : Type} [Scalar α]

/-- The rectangle between two opposite corners, in any order. -/
def ofCorners (p q : Point α) : Rect α :=
  { x := Scalar.minimum p.x q.x
    y := Scalar.minimum p.y q.y
    width := Scalar.abs (p.x - q.x)
    height := Scalar.abs (p.y - q.y) }

/-- The corner with the position of the rectangle. -/
def topLeft (r : Rect α) : Point α := ⟨r.x, r.y⟩

/-- The opposite corner. -/
def bottomRight (r : Rect α) : Point α := ⟨r.x + r.width, r.y + r.height⟩

/-- The same rectangle with a size that is not negative. -/
def normalized (r : Rect α) : Rect α := ofCorners r.topLeft r.bottomRight

/-- The weight of a side in the position of a corner. -/
def side (far : Bool) : α := if far then Scalar.one else Scalar.zero

/-- The position of a corner. -/
def corner (r : Rect α) (c : Corner) : Point α :=
  ⟨r.x + side c.right * r.width, r.y + side c.bottom * r.height⟩

/-- The point lies in the rectangle, its edges included. -/
def contains (r : Rect α) (p : Point α) : Bool :=
  let n := r.normalized
  Scalar.le n.x p.x && Scalar.le p.x (n.x + n.width) &&
    Scalar.le n.y p.y && Scalar.le p.y (n.y + n.height)

/-- The four edges of the normalized rectangle, around it. -/
def edges (r : Rect α) : List (Point α × Point α) :=
  let n := r.normalized
  let topRight : Point α := ⟨n.x + n.width, n.y⟩
  let bottomLeft : Point α := ⟨n.x, n.y + n.height⟩
  [(n.topLeft, topRight), (topRight, n.bottomRight), (n.bottomRight, bottomLeft),
    (bottomLeft, n.topLeft)]

/-- The distance of a point to the outline. -/
def borderDistance (r : Rect α) (p : Point α) : α :=
  Scalar.least (r.edges.map fun e => segmentDistance p e.1 e.2)

/-- The rectangle moved by an offset. -/
def moved (r : Rect α) (dx dy : α) : Rect α := { r with x := r.x + dx, y := r.y + dy }

end Rect

end Labeling
