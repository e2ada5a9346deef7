import Labeling.Geometry.Rect
import Labeling.Fields
import Labeling.Text.LeadingInt

/-!
# Shapes

A shape is an annotation drawn on one frame: a kind, a list of pixels, a category, a
track and further attributes. A box has exactly two pixels, of which the first is the
top-left corner.

* `Shape.box`, `Shape.line` and `Shape.point` build the shapes that can be drawn;
* `Shape.isDrawable` says whether a shape has enough pixels for its kind;
* `Shape.bounds?` is the smallest rectangle around all pixels.
-/

namespace Labeling

/-- The kind of a shape. -/
inductive ShapeKind where
  | box
  | line
  | point
  | polyline
  | polygon
  deriving DecidableEq, Repr, Inhabited

namespace ShapeKind

/-- The name of a kind. -/
def name : ShapeKind → String
  | .box => "box"
  | .line => "line"
  | .point => "point"
  | .polyline => "polyline"
  | .polygon => "polygon"

/-- The kind of a name. -/
def ofName? : String → Option ShapeKind
  | "box" => some .box
  | "line" => some .line
  | "point" => some .point
  | "polyline" => some .polyline
  | "polygon" => some .polygon
  | _ => none

/-- The least number of pixels with which a shape of this kind can be drawn. -/
def minPoints : ShapeKind → Nat
  | .point => 1
  | .box => 2
  | .line => 2
  | .polyline => 2
  | .polygon => 3

end ShapeKind

/-- An annotation drawn on one frame. -/
structure Shape where
  kind : ShapeKind
  points : List Pixel
  /-- Empty when no category is set. -/
  category : String
  track : Option Int
  /-- Attributes that are carried along, in the order of their names. -/
  attributes : Fields String
  deriving DecidableEq, Repr

namespace Shape

/-- A shape with nothing but its kind and pixels. -/
def plain (kind : ShapeKind) (points : List Pixel) : Shape :=
  { kind, points, category := "", track := none, attributes := [] }

/-- The pixels of the box between two opposite corners, in any order. -/
def boxPoints (p q : Pixel) : List Pixel :=
  [⟨min p.x q.x, min p.y q.y⟩, ⟨max p.x q.x, max p.y q.y⟩]

/-- The box between two opposite corners, in any order. -/
def box (p q : Pixel) : Shape := plain .box (boxPoints p q)

/-- The line from one pixel to another. -/
def line (p q : Pixel) : Shape := plain .line [p, q]

/-- A single pixel. -/
def point (p : Pixel) : Shape := plain .point [p]

/-- The shape with a category. -/
def withCategory (s : Shape) (category : String) : Shape := { s with category }

/-- The shape on a track. -/
def withTrack (s : Shape) (track : Int) : Shape := { s with track := some track }

/-- The shape has enough pixels for its kind. -/
def isDrawable (s : Shape) : Bool := s.kind.minPoints ≤ s.points.length

/-- Set the track from the text of a field; a text without a number clears it. -/
def setTrackText (s : Shape) (text : String) : Shape := { s with track := leadingInt? text }

/-- The text of the field for the track. -/
def trackText (s : Shape) : String :=
  match s.track with
  | some n => toString n
  | none => ""

/-- A box with two pixels gets them in order; any other shape stays as it is. -/
def normalizeBox (s : Shape) : Shape :=
  match s.kind, s.points with
  | .box, [p, q] => { s with points := boxPoints p q }
  | _, _ => s

/-! ## Bounds -/

section Bounds

variable {α : Type} [Scalar α]

/-- Extend a rectangle to a point. -/
def extend (r : Rect α) (p : Point α) : Rect α :=
  let left := Scalar.minimum r.x p.x
  let top := Scalar.minimum r.y p.y
  let right := Scalar.maximum (r.x + r.width) p.x
  let bottom := Scalar.maximum (r.y + r.height) p.y
  ⟨left, top, right - left, bottom - top⟩

/-- The smallest rectangle around some pixels. -/
def boundsOf? : List Pixel → Option (Rect α)
  | [] => none
  | p :: rest =>
    let start : Point α := p.point
    some ((p :: rest).foldl (fun r q => extend r q.point)
      ⟨start.x, start.y, Scalar.zero, Scalar.zero⟩)

/-- The smallest rectangle around a shape. -/
def bounds? (s : Shape) : Option (Rect α) := boundsOf? s.points

end Bounds

end Shape

end Labeling
