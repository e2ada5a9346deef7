import Labeling.Shape.Basic
import Labeling.Dataset.Basic

/-!
# Stored shapes

Shapes are stored in one of two encodings. A dataset of shapes holds the kind and the
pixels; a dataset of detections holds the four sides of a box. `WireShape` is a
stored shape in either encoding, each of its fields optional.

* `WireShape.read?` and `WireShape.toJson` are its two directions as JSON;
* `Encoding.encode` and `Encoding.decode?` lead from shapes to stored shapes and back;
* `Encoding.framesToJson` and `Encoding.frames?` do so for all frames of an item.

A shape that lacks what its encoding needs, or has too few pixels, is dropped; a
payload that is not a list of lists of stored shapes is refused as a whole.
-/

namespace Labeling

/-- How an output dataset stores shapes. -/
inductive Encoding where
  /-- Kind and pixels. -/
  | shape
  /-- The four sides of a box. -/
  | detection
  deriving DecidableEq, Repr

/-- The encoding for a data type: everything but detections stores shapes. -/
def Encoding.ofDataType : DataType → Encoding
  | .detection => .detection
  | _ => .shape

/-- A shape as a dataset stores it. -/
structure WireShape where
  kind : Option ShapeKind
  points : Option (List Pixel)
  left : Option Int
  top : Option Int
  right : Option Int
  bottom : Option Int
  category : Option String
  track : Option Int
  attributes : Option (Fields String)
  deriving DecidableEq, Repr

/-! ## Stored shapes as JSON -/

/-- Read a pixel. -/
def Pixel.read? (v : Json) : Option Pixel := do
  let (x, y) ← Json.pairOf Json.int? v
  return ⟨x, y⟩

/-- A pixel as an array. -/
def Pixel.toJson (p : Pixel) : Json := .arr [.int p.x, .int p.y]

/-- Read a kind by its name. -/
def ShapeKind.read? (v : Json) : Option ShapeKind := do ofName? (← Source.choice? v)

/-- Read a track. Zero stands for no track, as does `null`. -/
def trackOf? (v : Json) : Option (Option Int) := do
  let track ← Json.nullable Json.int? v
  return track.filter (· ≠ 0)

/-- Read an object of texts. -/
def attributes? (v : Json) : Option (Fields String) := do
  let fields ← v.obj?
  let pairs ← fields.mapM fun f => do return (f.1, ← f.2.str?)
  return Fields.ofList pairs

namespace WireShape

/-- Read a stored shape. -/
def read? (v : Json) : Option WireShape := do
  let r ← Source.recordOf v 9
  return {
    kind := ← r.optional 0 "Type" ShapeKind.read?
    points := ← r.optional 1 "Points" (Json.listOf Pixel.read?)
    left := ← r.optional 2 "Left" Json.int?
    top := ← r.optional 3 "Top" Json.int?
    right := ← r.optional 4 "Right" Json.int?
    bottom := ← r.optional 5 "Bottom" Json.int?
    category := ← r.optional 6 "Category" Json.str?
    track := ← r.given 7 ["TrackID"] trackOf? none
    attributes := ← r.optional 8 "Metadata" attributes? }

/-- One field of a record that is left out if it is not set. -/
def field {β : Type} (name : String) (write : β → Json) (value : Option β) :
    List (String × Json) :=
  (value.map fun b => (name, write b)).toList

/-- A stored shape as a record; what is not set is left out. -/
def toJson (w : WireShape) : Json :=
  .obj (field "Type" (fun k => .str k.name) w.kind ++
    field "Points" (fun ps => .arr (ps.map Pixel.toJson)) w.points ++
    field "Left" .int w.left ++ field "Top" .int w.top ++
    field "Right" .int w.right ++ field "Bottom" .int w.bottom ++
    field "Category" .str w.category ++ field "TrackID" .int w.track ++
    field "Metadata" (fun fs => .obj (fs.map fun f => (f.1, .str f.2))) w.attributes)

end WireShape

/-! ## Encoding shapes -/

namespace Encoding

/-- The corners under which a shape is stored as a detection: those of a box, and
those of the bounds of anything else. A shape without pixels is stored at the origin. -/
def corners (α : Type) [Scalar α] (s : Shape) : Pixel × Pixel :=
  match s.kind, s.points with
  | .box, [p, q] => (p, q)
  | _, _ =>
    match (s.bounds? : Option (Rect α)) with
    | some r => (r.topLeft.pixel, r.bottomRight.pixel)
    | none => (⟨0, 0⟩, ⟨0, 0⟩)

/-- Store a shape, with its bounds computed over some type of coordinates. Category,
track and attributes are only written when set. -/
def encodeOver (α : Type) [Scalar α] (e : Encoding) (s : Shape) : WireShape :=
  let category := if s.category.isEmpty then none else some s.category
  let attributes := if s.attributes.isEmpty then none else some s.attributes
  match e with
  | .shape =>
    { kind := some s.kind, points := some s.points
      left := none, top := none, right := none, bottom := none
      category, track := s.track, attributes }
  | .detection =>
    let (p, q) := corners α s
    { kind := none, points := none
      left := some p.x, top := some p.y, right := some q.x, bottom := some q.y
      category, track := s.track, attributes }

/-- Store a shape. -/
def encode (e : Encoding) (s : Shape) : WireShape := e.encodeOver Float s

/-- The kind and the pixels that a stored shape has under an encoding. A kind that is
not given is a box. -/
def outline? (e : Encoding) (w : WireShape) : Option (ShapeKind × List Pixel) :=
  match e with
  | .shape => do return (w.kind.getD .box, ← w.points)
  | .detection => do return (.box, [⟨← w.left, ← w.top⟩, ⟨← w.right, ← w.bottom⟩])

/-- Read a stored shape back; none if it lacks what the encoding needs or cannot be
drawn. -/
def decode? (e : Encoding) (w : WireShape) : Option Shape := do
  let (kind, points) ← e.outline? w
  let s : Shape :=
    { kind, points, category := w.category.getD "", track := w.track
      attributes := w.attributes.getD [] }
  if s.isDrawable then some s else none

/-- The stored form of the shapes of all frames. -/
def framesToJson (e : Encoding) (frames : List (List Shape)) : Json :=
  .arr (frames.map fun shapes => .arr (shapes.map fun s => (e.encode s).toJson.sorted))

/-- Read the shapes of all frames; shapes that cannot be read back are dropped. -/
def frames? (e : Encoding) (data : Json) : Option (List (List Shape)) := do
  let frames ← Json.listOf (Json.listOf WireShape.read?) data
  return frames.map fun shapes => shapes.filterMap e.decode?

end Encoding

/-- The metadata handed in with shapes: the size of the image, if it is known, and the
categories. -/
def shapeMetadata (dims : Option Dims) (categories : List String) : Json :=
  .object [("CanvasDims", .option (fun d => .arr [.nat d.width, .nat d.height]) dims),
    ("Categories", .arr (categories.map .str))]

end Labeling
