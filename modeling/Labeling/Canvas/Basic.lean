import Labeling.Canvas.Stage
import Labeling.Canvas.Mode
import Labeling.Keyboard.Bindings

/-!
# The canvas

The canvas is the editor for the shapes of one frame. It does not own the list of
shapes: an operation that changes shapes takes the list and returns it changed.

At any time the canvas may have a selected shape, a shape under the pointer, a shape
being drawn (`Provisional`) and a drag in progress (`Drag`). It keeps the scene that it
drew last.

* `Canvas.render` draws the scene anew;
* `Visual.ofShape` and `Shape.isHit` say how a shape looks and where it reacts.
-/

namespace Labeling

/-! ## Shapes on the canvas -/

section Shapes

variable {α : Type} [Scalar α]

/-- The rectangle of a box with its two pixels. -/
def Shape.boxRect? (s : Shape) : Option (Rect α) :=
  match s.kind, s.points with
  | .box, [p, q] => some (.ofCorners p.point q.point)
  | _, _ => none

/-- The segments between neighbours. -/
def segments : List (Point α) → List (Point α × Point α)
  | p :: q :: rest => (p, q) :: segments (q :: rest)
  | _ => []

/-- The segments of a line: those between neighbours, and for a polygon of more than
two points the one that closes it. -/
def Shape.segments (s : Shape) : List (Point α × Point α) :=
  let points : List (Point α) := s.points.map Pixel.point
  let closing :=
    match points, points.getLast? with
    | first :: _ :: _ :: _, some last => if s.kind = .polygon then [(last, first)] else []
    | _, _ => []
  Labeling.segments points ++ closing

/-- The elements that show a shape. A box without its two pixels is not shown. -/
def Visual.ofShape (s : Shape) : List (Visual α) :=
  match s.kind with
  | .box =>
    match (s.boxRect? : Option (Rect α)) with
    | some r =>
      [{ Visual.outline (.rect r) Style.shapeColor (Scalar.ofInt Style.strokeWidth) with
          hitWidth := Scalar.ofInt Style.boxHitWidth }]
    | none => []
  | .point =>
    match s.points with
    | p :: _ =>
      [.outline (.circle p.point (Scalar.ofInt Style.pointRadius)) Style.shapeColor
        (Scalar.ofInt Style.pointStrokeWidth)]
    | [] => []
  | _ =>
    s.segments.map fun e =>
      .outline (.line e.1 e.2) Style.shapeColor (Scalar.ofInt Style.strokeWidth)

/-- A position reacts for a shape. A box reacts near its outline only. -/
def Shape.isHit (s : Shape) (p : Point α) : Bool :=
  match s.kind with
  | .box =>
    match (s.boxRect? : Option (Rect α)) with
    | some r => Scalar.le (r.borderDistance p) (Scalar.half Style.boxHitWidth)
    | none => false
  | .point =>
    match s.points with
    | q :: _ =>
      Scalar.le (p.distance q.point)
        (Scalar.ofInt Style.pointRadius + Scalar.half Style.pointStrokeWidth)
    | [] => false
  | _ =>
    s.segments.any fun e =>
      Scalar.le (segmentDistance p e.1 e.2) (Scalar.half Style.strokeWidth)

/-- The shape on top at a position. -/
def hitShape? (shapes : List Shape) (p : Point α) : Option Nat :=
  topmost? (fun s => s.isHit p) shapes

end Shapes

/-! ## Drawing and dragging -/

/-- The shape being drawn, between its two clicks. -/
inductive Provisional (α : Type) where
  | box (anchor corner : Point α)
  | line (start finish : Point α)
  deriving Repr

namespace Provisional

variable {α : Type} [Scalar α]

/-- The second point goes where the pointer is. -/
def follow (d : Provisional α) (p : Point α) : Provisional α :=
  match d with
  | .box anchor _ => .box anchor p
  | .line start _ => .line start p

/-- The shape that is drawn, in whole pixels. -/
def shape (d : Provisional α) (category : String) : Shape :=
  match d with
  | .box anchor corner => (Shape.box anchor.pixel corner.pixel).withCategory category
  | .line start finish => (Shape.line start.pixel finish.pixel).withCategory category

/-- The element that shows it. -/
def visual (d : Provisional α) : Visual α :=
  match d with
  | .box anchor corner =>
    .outline (.rect (.ofCorners anchor corner)) Style.drawingColor (Scalar.ofInt Style.strokeWidth)
  | .line start finish =>
    .outline (.line start finish) Style.drawingColor (Scalar.ofInt Style.strokeWidth)

end Provisional

/-- A drag in progress. -/
inductive Drag (α : Type) where
  /-- A whole shape follows the pointer, from where it was grabbed. -/
  | move (index : Nat) (origin : Point α) (grabbed : List Pixel)
  /-- A corner of a box follows the pointer. -/
  | handle (index : Nat) (corner : Corner) (rect : Rect α)
  deriving Repr

/-! ## The canvas and its scene -/

/-- The editor for the shapes of a frame. -/
structure Canvas (α : Type) where
  mode : DrawMode
  /-- The categories that can be given. -/
  categories : List String
  /-- The category of new shapes; empty for none. -/
  category : String
  bindings : KeyBindings
  stage : Stage α
  selected : Option Nat
  hovered : Option Nat
  drawing : Option (Provisional α)
  drag : Option (Drag α)
  /-- What was drawn last. -/
  scene : Scene α
  deriving Repr

namespace Canvas

variable {α : Type} [Scalar α]

/-- A canvas without image. -/
def new (mode : DrawMode) (categories : List String) (bindings : KeyBindings) : Canvas α :=
  { mode, categories, category := "", bindings, stage := .empty, selected := none
    hovered := none, drawing := none, drag := none, scene := .none }

/-- A shape is being drawn. -/
def isDrawing (c : Canvas α) : Bool := c.drawing.isSome

/-- A category that can be given, or none. -/
def knowsCategory (c : Canvas α) (category : String) : Bool :=
  category.isEmpty || c.categories.contains category

/-- An index that is still one of the list. -/
def validIndex (shapes : List Shape) (index : Option Nat) : Option Nat :=
  index.filter (· < shapes.length)

/-- The colour of a shape. While a shape is being drawn the others do not react to the
pointer. -/
def colorOf (c : Canvas α) (index : Nat) : Color :=
  if c.selected = some index then Style.selectedColor
  else if c.hovered = some index ∧ c.drawing.isNone then Style.hoverColor
  else Style.shapeColor

/-- The elements of the shapes, from a first index on. -/
def shapeVisuals (c : Canvas α) : Nat → List Shape → List (Visual α)
  | _, [] => []
  | index, s :: rest =>
    (Visual.ofShape s).map (fun v => { v with stroke := c.colorOf index, index := some index }) ++
      shapeVisuals c (index + 1) rest

/-- The shape that is being moved as a whole. -/
def movingIndex? (c : Canvas α) : Option Nat :=
  match c.drag with
  | some (.move index _ _) => some index
  | _ => none

/-- The handle of a corner. -/
def handleVisual (index : Nat) (r : Rect α) (corner : Corner) : Visual α :=
  { Visual.outline (.circle (r.corner corner) (Scalar.ofInt Style.handleRadius))
      Style.handleStroke (Scalar.ofInt Style.handleStrokeWidth) with
    fill := some Style.handleFill, index := some index }

/-- The handles of the selected box, unless it is being moved. -/
def handleVisuals (c : Canvas α) (shapes : List Shape) : List (Visual α) :=
  match c.selected with
  | none => []
  | some index =>
    if c.movingIndex? = some index then []
    else
      match shapes[index]? with
      | none => []
      | some s =>
        match (s.boxRect? : Option (Rect α)) with
        | some r => Corner.all.map (handleVisual index r)
        | none => []

/-- The scene of a canvas over a list of shapes. -/
def sceneOf (c : Canvas α) (shapes : List Shape) : Scene α :=
  match c.stage.blankScene? with
  | none => .none
  | some scene =>
    { scene with
      layer := c.shapeVisuals 0 shapes ++ (c.drawing.map Provisional.visual).toList
      handles := c.handleVisuals shapes }

/-- Forget indices that the list no longer has, and draw the scene anew. -/
def render (c : Canvas α) (shapes : List Shape) : Canvas α :=
  let c := { c with
    selected := validIndex shapes c.selected, hovered := validIndex shapes c.hovered }
  { c with scene := c.sceneOf shapes }

end Canvas

end Labeling
