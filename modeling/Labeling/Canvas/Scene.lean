import Labeling.Geometry.Rect

/-!
# Scenes

A scene is what is shown on top of an image: a layer of annotations and, above it, a
layer of handles. Each element of a layer says what it looks like, how wide a band
around its outline reacts to the pointer, and to which shape or detection it belongs.
All geometry is in image pixels; the scene carries the scale at which it is shown.

The module also holds the look of the annotations (`Style`), and the rule by which the
pointer finds one of several items: the one drawn last is on top (`topmost?`).
-/

namespace Labeling

/-! ## Elements -/

/-- A colour of strokes and fills. -/
inductive Color where
  | red
  | orange
  | yellow
  | blue
  | black
  deriving DecidableEq, Repr

/-- The name of a colour in style sheets. -/
def Color.css : Color → String
  | .red => "red"
  | .orange => "orange"
  | .yellow => "yellow"
  | .blue => "blue"
  | .black => "black"

/-- What an element shows. -/
inductive Figure (α : Type) where
  | rect (r : Rect α)
  | line (p q : Point α)
  | circle (center : Point α) (radius : α)
  deriving Repr

/-- An element of a layer. -/
structure Visual (α : Type) where
  figure : Figure α
  stroke : Color
  strokeWidth : α
  fill : Option Color
  /-- How wide the band around the outline is that reacts to the pointer. -/
  hitWidth : α
  /-- The shape or detection to which the element belongs. -/
  index : Option Nat
  deriving Repr

namespace Visual

variable {α : Type}

/-- An outline that belongs to nothing and reacts where it is drawn. -/
def outline (figure : Figure α) (stroke : Color) (width : α) : Visual α :=
  { figure, stroke, strokeWidth := width, fill := none, hitWidth := width, index := none }

end Visual

/-! ## Scenes -/

/-- What is shown on top of an image. -/
structure Scene (α : Type) where
  /-- The size on the screen. -/
  size : Dims
  /-- The scale from image to screen. -/
  scale : α
  layer : List (Visual α)
  handles : List (Visual α)
  deriving Repr

namespace Scene

variable {α : Type}

/-- A scene that shows nothing. -/
def blank (size : Dims) (scale : α) : Scene α := ⟨size, scale, [], []⟩

/-- The scene when there is no image. -/
def none [Scalar α] : Scene α := blank ⟨0, 0⟩ Scalar.one

/-- Nothing is shown. -/
def isEmpty (s : Scene α) : Bool := s.layer.isEmpty && s.handles.isEmpty

/-- The stroke of the first element that belongs to a shape or detection. -/
def strokeOf? (s : Scene α) (index : Nat) : Option Color :=
  (s.layer.find? fun v => v.index == some index).map Visual.stroke

end Scene

/-- The index of the last item with a property: of those under the pointer, the one
drawn on top of the others. -/
def topmost? {β : Type} (p : β → Bool) : List β → Option Nat
  | [] => none
  | b :: rest =>
    match topmost? p rest with
    | some i => some (i + 1)
    | none => if p b then some 0 else none

/-! ## The look of annotations -/

namespace Style

/-- The stroke width of shapes and detections. -/
def strokeWidth : Int := 3

/-- The width of the band in which a box reacts, which is wider than its stroke. -/
def boxHitWidth : Int := 20

/-- The radius of the marker of a point. -/
def pointRadius : Int := 5

/-- The stroke width of the marker of a point. -/
def pointStrokeWidth : Int := 2

/-- The radius of the handle of a corner. -/
def handleRadius : Int := 10

/-- The stroke width of the handle of a corner. -/
def handleStrokeWidth : Int := 2

/-- The size of a shape right after the click that starts it. -/
def provisionalSize : Int := 1

/-- A shape. -/
def shapeColor : Color := .red

/-- The selected shape. -/
def selectedColor : Color := .orange

/-- The shape under the pointer. -/
def hoverColor : Color := .yellow

/-- The shape being drawn. -/
def drawingColor : Color := .yellow

/-- The inside of a handle. -/
def handleFill : Color := .blue

/-- The outline of a handle. -/
def handleStroke : Color := .black

/-- A detection on a track. -/
def labeledColor : Color := .red

/-- A detection on no track. -/
def unlabeledColor : Color := .yellow

end Style

end Labeling
