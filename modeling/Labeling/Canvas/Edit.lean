import Labeling.Canvas.Basic
import Labeling.Keyboard.Hub

/-!
# Editing on the canvas

The operations of the canvas. An operation that changes shapes takes the shapes of the
frame and returns them with the canvas; every operation that changes what is shown
draws the scene anew, except those that only set the stage or the categories, after
which the caller draws.

A shape takes two clicks: the first puts down a shape of minimal size whose second
point follows the pointer, the second adds it to the list. A click on a shape selects
it, and a click elsewhere clears the selection before anything new is begun.

`Canvas.perform` collects the operations under one name, so that a run of the canvas is
a list of `CanvasOp`.
-/

namespace Labeling

namespace Canvas

variable {α : Type} [Scalar α]

/-! ## Mode, categories and image -/

/-- Give up what is being drawn or dragged, and forget the pointer. -/
def clearInteraction (c : Canvas α) : Canvas α :=
  { c with drawing := none, drag := none, hovered := none }

/-- Change the mode. -/
def setMode (c : Canvas α) (mode : DrawMode) (shapes : List Shape) : Canvas α :=
  ({ c with mode }.clearInteraction).render shapes

/-- Change the categories that can be given. The category of new shapes is cleared if
it is no longer one of them. -/
def setCategories (c : Canvas α) (categories : List String) : Canvas α :=
  let c := { c with categories }
  if c.knowsCategory c.category then c else { c with category := "" }

/-- Change the category of new shapes; a category that cannot be given is refused. -/
def setCategory (c : Canvas α) (category : String) : Bool × Canvas α :=
  if c.knowsCategory category then (true, { c with category }) else (false, c)

/-- Attach an image. -/
def attach (c : Canvas α) (natural : Dims) : Canvas α := { c with stage := c.stage.attach natural }

/-- Set the size of the element that shows the image. -/
def resize (c : Canvas α) (width height : α) : Canvas α :=
  { c with stage := c.stage.resize width height }

/-- Forget everything about the frame that was shown. -/
def resetFrame (c : Canvas α) : Canvas α :=
  { { c with stage := c.stage.detach }.clearInteraction with selected := none, scene := .none }

/-! ## The pointer -/

/-- Begin what the mode creates, at a position in the image. -/
def begin (c : Canvas α) (shapes : List Shape) (p : Point α) : Canvas α × List Shape :=
  let size : α := Scalar.ofInt Style.provisionalSize
  let corner : Point α := ⟨p.x + size, p.y + size⟩
  match c.mode with
  | .box => ({ c with drawing := some (.box p corner) }, shapes)
  | .line => ({ c with drawing := some (.line p corner) }, shapes)
  | .point => (c, shapes ++ [(Shape.point p.pixel).withCategory c.category])
  | .polygon => (c, shapes)

/-- A click: finish the shape being drawn, or else select the shape there, or else clear
the selection, or else begin a new shape. -/
def click (c : Canvas α) (shapes : List Shape) (pos : Point α) : Canvas α × List Shape :=
  if c.stage.isAttached then
    let p := c.stage.toNatural pos
    let (c, shapes) :=
      match c.drawing with
      | some d => ({ c with drawing := none }, shapes ++ [(d.follow p).shape c.category])
      | none =>
        match hitShape? shapes p with
        | some index => ({ c with selected := some index }, shapes)
        | none =>
          if c.selected.isSome then ({ c with selected := none }, shapes)
          else c.begin shapes p
    (c.render shapes, shapes)
  else (c, shapes)

/-- A move of the pointer: the shape being drawn follows it, or else the shape under it
is remembered. -/
def pointerMove (c : Canvas α) (shapes : List Shape) (pos : Point α) : Canvas α :=
  if c.stage.isAttached then
    let p := c.stage.toNatural pos
    let c :=
      match c.drawing with
      | some d => { c with drawing := some (d.follow p) }
      | none => { c with hovered := hitShape? shapes p }
    c.render shapes
  else c

/-- A corner of a rectangle is near enough to be grabbed. -/
def grabs (r : Rect α) (p : Point α) (corner : Corner) : Bool :=
  Scalar.le (p.distance (r.corner corner))
    (Scalar.ofInt Style.handleRadius + Scalar.half Style.handleStrokeWidth)

/-- The drag of the handle at a position, which belongs to the selected box. -/
def handleAt? (c : Canvas α) (shapes : List Shape) (p : Point α) : Option (Drag α) := do
  let index ← c.selected
  let s ← shapes[index]?
  let r ← s.boxRect?
  let corner ← Corner.all.find? (grabs r p)
  return .handle index corner r

/-- The drag of the shape at a position. -/
def shapeAt? (shapes : List Shape) (p : Point α) : Option (Drag α) := do
  let index ← hitShape? shapes p
  let s ← shapes[index]?
  return .move index p s.points

/-- The drag that begins at a position: that of a handle, or else that of a shape. -/
def grabbed? (c : Canvas α) (shapes : List Shape) (p : Point α) : Option (Drag α) :=
  match c.handleAt? shapes p with
  | some d => some d
  | none => shapeAt? shapes p

/-- Begin to drag; nothing is grabbed while a shape is being drawn. -/
def dragStart (c : Canvas α) (shapes : List Shape) (pos : Point α) : Bool × Canvas α :=
  if !c.stage.isAttached || c.isDrawing then (false, c)
  else
    match c.grabbed? shapes (c.stage.toNatural pos) with
    | some d => (true, { c with drag := some d }.render shapes)
    | none => (false, c)

/-- The pixels of a shape moved by an offset, with fractions dropped. -/
def movedPoints (grabbed : List Pixel) (dx dy : α) : List Pixel :=
  grabbed.map fun q => (⟨Scalar.ofInt q.x + dx, Scalar.ofInt q.y + dy⟩ : Point α).pixel

/-- The rectangle after a corner went to a position, and the corner that is dragged from
then on. When the position is beyond the opposite edge, the corner on the other side is dragged. -/
def pulled (r : Rect α) (corner : Corner) (p : Point α) : Rect α × Corner :=
  let (x, width) := if corner.right then (r.x, p.x - r.x) else (p.x, r.width + (r.x - p.x))
  let (y, height) := if corner.bottom then (r.y, p.y - r.y) else (p.y, r.height + (r.y - p.y))
  let right := if Scalar.lt width Scalar.zero then !corner.right else corner.right
  let bottom := if Scalar.lt height Scalar.zero then !corner.bottom else corner.bottom
  ((⟨x, y, width, height⟩ : Rect α).normalized, ⟨right, bottom⟩)

/-- A move of the pointer during a drag. -/
def dragMove (c : Canvas α) (shapes : List Shape) (pos : Point α) : Canvas α × List Shape :=
  let p := c.stage.toNatural pos
  match c.drag with
  | none => (c, shapes)
  | some (.move index origin grabbed) =>
    let points := movedPoints grabbed (p.x - origin.x) (p.y - origin.y)
    let shapes := shapes.modify index fun s => { s with points }
    (c.render shapes, shapes)
  | some (.handle index corner rect) =>
    let (rect, corner) := pulled rect corner p
    let points := [rect.topLeft.pixel, rect.bottomRight.pixel]
    let shapes := shapes.modify index fun s => { s with points }.normalizeBox
    ({ c with drag := some (.handle index corner rect) }.render shapes, shapes)

/-- The end of a drag. -/
def dragEnd (c : Canvas α) (shapes : List Shape) : Canvas α :=
  if c.drag.isSome then { c with drag := none }.render shapes else c

/-! ## Giving up, removing and changing shapes -/

/-- Give up the shape being drawn, if there is one. -/
def cancelDraw (c : Canvas α) (shapes : List Shape) : Bool × Canvas α :=
  if c.isDrawing then (true, { c with drawing := none }.render shapes) else (false, c)

/-- Remove the selected shape, if there is one. -/
def deleteSelection (c : Canvas α) (shapes : List Shape) :
    Option Shape × Canvas α × List Shape :=
  match c.selected with
  | none => (none, c, shapes)
  | some index =>
    let c := { c with selected := none }
    match shapes[index]? with
    | none => (none, c, shapes)
    | some s =>
      let shapes := shapes.eraseIdx index
      (some s, { c with hovered := none, drag := none }.render shapes, shapes)

/-- A key going up outside text fields gives up a shape or removes the selected one, as
it is bound. -/
def handleKey (c : Canvas α) (shapes : List Shape) (e : KeyEvent) : Bool × Canvas α × List Shape :=
  if e.isPress || e.inField then (false, c, shapes)
  else if e.key = c.bindings.cancelDraw then
    let (done, c) := c.cancelDraw shapes
    (done, c, shapes)
  else if e.key = c.bindings.deleteSelection then
    let (removed, c, shapes) := c.deleteSelection shapes
    (removed.isSome, c, shapes)
  else (false, c, shapes)

/-- Change the selected shape, if there is one. -/
def modifySelected (c : Canvas α) (shapes : List Shape) (f : Shape → Shape) : Bool × List Shape :=
  match c.selected with
  | none => (false, shapes)
  | some index =>
    if index < shapes.length then (true, shapes.modify index f) else (false, shapes)

/-- Give the selected shape a category, if it can be given. -/
def setSelectedCategory (c : Canvas α) (shapes : List Shape) (category : String) :
    Bool × List Shape :=
  if c.knowsCategory category then c.modifySelected shapes (·.withCategory category)
  else (false, shapes)

/-- Give the selected shape the track typed into a text field. -/
def setSelectedTrack (c : Canvas α) (shapes : List Shape) (text : String) : Bool × List Shape :=
  c.modifySelected shapes (·.setTrackText text)

end Canvas

/-! ## Operations as data -/

/-- An operation of the canvas. -/
inductive CanvasOp (α : Type) where
  | setMode (mode : DrawMode)
  | setCategories (categories : List String)
  | setCategory (category : String)
  | attach (natural : Dims)
  | resize (width height : α)
  | resetFrame
  | render
  | click (pos : Point α)
  | pointerMove (pos : Point α)
  | dragStart (pos : Point α)
  | dragMove (pos : Point α)
  | dragEnd
  | cancelDraw
  | deleteSelection
  | key (e : KeyEvent)
  | setSelectedCategory (category : String)
  | setSelectedTrack (text : String)

/-- What an operation answers: nothing, whether it did something, or the shape or
feature it removed. -/
inductive Reply where
  | nothing
  | flag (done : Bool)
  | shape (removed : Option Shape)
  | feature (removed : Option Json)

namespace Canvas

variable {α : Type} [Scalar α]

/-- Perform an operation on the canvas and the shapes of the frame. -/
def perform (c : Canvas α) (shapes : List Shape) : CanvasOp α → Reply × Canvas α × List Shape
  | .setMode mode => (.nothing, c.setMode mode shapes, shapes)
  | .setCategories categories => (.nothing, c.setCategories categories, shapes)
  | .setCategory category =>
    let (done, c) := c.setCategory category
    (.flag done, c, shapes)
  | .attach natural => (.nothing, c.attach natural, shapes)
  | .resize width height => (.nothing, c.resize width height, shapes)
  | .resetFrame => (.nothing, c.resetFrame, shapes)
  | .render => (.nothing, c.render shapes, shapes)
  | .click p =>
    let (c, shapes) := c.click shapes p
    (.nothing, c, shapes)
  | .pointerMove p => (.nothing, c.pointerMove shapes p, shapes)
  | .dragStart p =>
    let (done, c) := c.dragStart shapes p
    (.flag done, c, shapes)
  | .dragMove p =>
    let (c, shapes) := c.dragMove shapes p
    (.nothing, c, shapes)
  | .dragEnd => (.nothing, c.dragEnd shapes, shapes)
  | .cancelDraw =>
    let (done, c) := c.cancelDraw shapes
    (.flag done, c, shapes)
  | .deleteSelection =>
    let (removed, c, shapes) := c.deleteSelection shapes
    (.shape removed, c, shapes)
  | .key e =>
    let (done, c, shapes) := c.handleKey shapes e
    (.flag done, c, shapes)
  | .setSelectedCategory category =>
    let (done, shapes) := c.setSelectedCategory shapes category
    (.flag done, c, shapes)
  | .setSelectedTrack text =>
    let (done, shapes) := c.setSelectedTrack shapes text
    (.flag done, c, shapes)

end Canvas

end Labeling
