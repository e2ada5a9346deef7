import Labeling.Tool.View
import Labeling.Shape.Wire

/-!
# The shape tool

Draws boxes, lines and points on the frames of an item. The tool holds the shapes of
every frame, and a canvas that edits those of the frame that is shown. Its parameters
are a drawing mode and the categories that can be given; they are read generously, and
whatever is missing or malformed takes its default.
-/

namespace Labeling

/-! ## Lists separated by commas

The categories of the tool are edited as one text with commas between them. There is no
way to write a comma inside an item. An empty text is a list without items, so a list
of one empty item has no text of its own.
-/

/-- The parts between commas; there is always at least one. -/
def splitCommas : List Char → List (List Char)
  | [] => [[]]
  | c :: rest =>
    if c = ',' then [] :: splitCommas rest
    else
      match splitCommas rest with
      | [] => [[c]]
      | part :: parts => (c :: part) :: parts

/-- Put commas between parts. -/
def joinCommas : List (List Char) → List Char
  | [] => []
  | [part] => part
  | part :: parts => part ++ ',' :: joinCommas parts

/-- The items of a text. -/
def commaItems (text : String) : List String :=
  if text.isEmpty then [] else (splitCommas text.toList).map String.ofList

/-- The text of items. -/
def commaText (items : List String) : String :=
  String.ofList (joinCommas (items.map String.toList))

/-! ## Parameters -/

/-- The parameters of the shape tool. -/
structure ShapeParams where
  mode : DrawMode
  categories : List String
  deriving DecidableEq, Repr

namespace ShapeParams

/-- The parameters when there are none. -/
def default : ShapeParams := ⟨.box, []⟩

/-- Read parameters; both fields are optional. -/
def read? {ν : Type} [Source ν] (v : ν) : Option ShapeParams := do
  let r ← Source.recordOf v 2
  let mode ← r.optional 0 "Mode" Json.str?
  let categories ← r.optional 1 "Categories" (Json.listOf Json.str?)
  return ⟨.ofParam (mode.getD ""), categories.getD []⟩

/-- The parameters of an annotation set. -/
def ofSet (set : AnnotationSet) : ShapeParams :=
  (set.paramsDocument?.bind read?).getD default

/-- The parameters as an object. -/
def toJson (p : ShapeParams) : Json :=
  .object [("Mode", .str p.mode.name), ("Categories", .arr (p.categories.map .str))]

/-- The categories as an editable text. -/
def categoriesText (p : ShapeParams) : String := commaText p.categories

end ShapeParams

/-! ## The tool -/

/-- The tool that draws shapes. -/
structure ShapeTool where
  params : ShapeParams
  encoding : Encoding
  /-- The shapes of every frame. -/
  frames : List (List Shape)
  canvas : Canvas Float

namespace ShapeTool

/-- The tool of an annotation set. -/
def new (set : AnnotationSet) (bindings : KeyBindings) : ShapeTool :=
  let params := ShapeParams.ofSet set
  { params, encoding := .ofDataType set.dataType, frames := []
    canvas := .new params.mode params.categories bindings }

/-- The shapes of the frame that is shown. -/
def shown (t : ShapeTool) (v : View) : List Shape :=
  (v.frame.bind fun k => t.frames[k]?).getD []

/-- Perform an operation of the canvas on the shapes of the frame that is shown, if
there is one. -/
def editFrame (t : ShapeTool) (v : View) (op : CanvasOp Float) : Option (Reply × ShapeTool) := do
  let k ← v.frame
  let shapes ← t.frames[k]?
  let (reply, canvas, shapes) := t.canvas.perform shapes op
  return (reply, { t with canvas, frames := t.frames.set k shapes })

/-- Perform an operation of the canvas that changes no shapes. It is performed without
shapes if no frame is shown. -/
def editShown (t : ShapeTool) (v : View) (op : CanvasOp Float) : Reply × ShapeTool :=
  let (reply, canvas, _) := t.canvas.perform (t.shown v) op
  (reply, { t with canvas })

/-- The outcome of an operation on the frame that is shown, with the answer when there
is none. -/
def editOutcome (t : ShapeTool) (v : View) (op : CanvasOp Float) (otherwise : Reply) :
    Outcome ShapeTool :=
  match t.editFrame v op with
  | some (reply, t) => ⟨t, [], reply⟩
  | none => ⟨t, [], otherwise⟩

/-- The outcome of an operation that changes no shapes. -/
def showOutcome (t : ShapeTool) (v : View) (op : CanvasOp Float) : Outcome ShapeTool :=
  let (reply, t) := t.editShown v op
  ⟨t, [], reply⟩

/-- Draw the frame that is shown. -/
def render (t : ShapeTool) (v : View) : ShapeTool := (t.editShown v .render).2

/-- Take stored shapes for as many frames as the item has. An empty list, and anything
that is not stored shapes, is ignored. -/
def load (t : ShapeTool) (v : View) (data : Json) : ShapeTool :=
  match data with
  | .arr [] => t
  | data =>
    match t.encoding.frames? data with
    | none => t
    | some frames =>
      let t := { t with frames := resized v.frameCount [] frames }
      if v.isRendered then t.render v else t

/-- Attach the image of the frame, and draw. -/
def imageLoaded (t : ShapeTool) (v : View) : ShapeTool :=
  let t := match v.dims with
    | some dims => { t with canvas := t.canvas.attach dims }
    | none => t
  t.render v

/-- Forget the frame that was shown. -/
def resetFrame (t : ShapeTool) : ShapeTool := { t with canvas := t.canvas.resetFrame }

/-- React to an event. -/
def handle (t : ShapeTool) (v : View) : ToolEvent → Outcome ShapeTool
  | .itemShown => .quiet { t with frames := List.replicate v.frameCount [] }
  | .stored data => .quiet (t.load v data)
  | .imageLoaded => .quiet (t.imageLoaded v)
  | .key e => t.editOutcome v (.key e) (.flag false)
  | .click p => t.editOutcome v (.click p) .nothing
  | .pointerMove p => t.showOutcome v (.pointerMove p)
  | .dragStart p => t.showOutcome v (.dragStart p)
  | .dragMove p => t.editOutcome v (.dragMove p) .nothing
  | .dragEnd => t.showOutcome v .dragEnd
  | .resize width height => .quiet ({ t with canvas := t.canvas.resize width height }.render v)
  | .render => .quiet (t.render v)
  | e => ⟨t, [], e.ignored⟩

/-! ## Parameters and selection -/

/-- Change the drawing mode. -/
def setMode (t : ShapeTool) (v : View) (mode : DrawMode) : ShapeTool :=
  ({ t with params := { t.params with mode } }.editShown v (.setMode mode)).2

/-- Change the categories, given as a text with commas. -/
def setCategories (t : ShapeTool) (v : View) (text : String) : ShapeTool :=
  let categories := commaItems text
  let t := { t with
    params := { t.params with categories }, canvas := t.canvas.setCategories categories }
  (t.editShown v (.setMode t.params.mode)).2

/-- The annotations and the metadata to hand in. -/
def annotations (t : ShapeTool) (v : View) : Json × Option Json :=
  (t.encoding.framesToJson t.frames, some (shapeMetadata v.dims t.params.categories))

end ShapeTool

end Labeling
