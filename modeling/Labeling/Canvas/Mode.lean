import Labeling.Shape.Basic

/-!
# Drawing modes

What a click on an empty place of the canvas begins. Boxes and lines take two clicks,
points one, and in polygon mode shapes can be selected but not created.
-/

namespace Labeling

/-- What is drawn on the canvas. -/
inductive DrawMode where
  | box
  | line
  | point
  | polygon
  deriving DecidableEq, Repr

namespace DrawMode

/-- The mode of a tool parameter; an unknown one is the box mode. -/
def ofParam : String → DrawMode
  | "line" => .line
  | "point" => .point
  | "polygon" => .polygon
  | _ => .box

/-- The name of a mode. -/
def name : DrawMode → String
  | .box => "box"
  | .line => "line"
  | .point => "point"
  | .polygon => "polygon"

/-- The kind of shape that is created. -/
def creates? : DrawMode → Option ShapeKind
  | .box => some .box
  | .line => some .line
  | .point => some .point
  | .polygon => none

/-- A shape takes two clicks. -/
def isTwoPhase : DrawMode → Bool
  | .box => true
  | .line => true
  | _ => false

end DrawMode

end Labeling
