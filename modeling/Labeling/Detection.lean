import Labeling.Shape.Wire

/-!
# Detections

A detection is a box found by a program, given by its four sides, that may be put on a
track. Fields that are not interpreted, such as a score, are kept, so that a detection
is stored again with all it came with.

`detectionFrames?` reads the detections of all frames of an item; a frame that is
`null` has none.
-/

namespace Labeling

/-- A box on one frame, on a track or not. -/
structure Detection where
  left : Int
  top : Int
  right : Int
  bottom : Int
  track : Option Int
  category : Option String
  /-- The fields that are not interpreted, in the order of their names. -/
  extra : Fields Json

namespace Detection

/-- A detection with nothing but its sides. -/
def plain (left top right bottom : Int) : Detection :=
  { left, top, right, bottom, track := none, category := none, extra := [] }

/-- The names of the fields that are interpreted. -/
def fieldNames : List String := ["Left", "Top", "Right", "Bottom", "TrackID", "Category"]

/-- Read a detection, which must be an object. -/
def read? (v : Json) : Option Detection := do
  let fields ← v.obj?
  let r : Record Json := .named fields
  return {
    left := ← r.required 0 "Left" Json.int?
    top := ← r.required 1 "Top" Json.int?
    right := ← r.required 2 "Right" Json.int?
    bottom := ← r.required 3 "Bottom" Json.int?
    track := ← r.given 4 ["TrackID"] trackOf? none
    category := ← r.optional 5 "Category" Json.str?
    extra := Fields.ofList (fields.filter fun f => !fieldNames.contains f.1) }

/-- A detection as an object; a track or category that is not set is left out. -/
def toJson (d : Detection) : Json :=
  .object ([("Left", .int d.left), ("Top", .int d.top), ("Right", .int d.right),
      ("Bottom", .int d.bottom)] ++
    WireShape.field "TrackID" .int d.track ++ WireShape.field "Category" .str d.category ++
    d.extra)

/-- The detection is on a track. -/
def isLabeled (d : Detection) : Bool := d.track.isSome

/-- The sides are so close together that their distances are 64-bit integers. -/
def sizeFits (d : Detection) : Bool := isInt64 (d.right - d.left) && isInt64 (d.bottom - d.top)

variable {α : Type} [Scalar α]

/-- The rectangle of a detection in the image. Its size is that of 64-bit integers, and wraps
around where the sides are too far apart. -/
def rect (d : Detection) : Rect α :=
  ⟨Scalar.ofInt d.left, Scalar.ofInt d.top, Scalar.ofInt (wrapInt64 (d.right - d.left)),
    Scalar.ofInt (wrapInt64 (d.bottom - d.top))⟩

/-- The corner by which the nearest detection is found. -/
def topLeft (d : Detection) : Point α := ⟨Scalar.ofInt d.left, Scalar.ofInt d.top⟩

end Detection

/-- Read the detections of all frames; none if the payload is not a list of lists of
detections. -/
def detectionFrames? (data : Json) : Option (List (List Detection)) := do
  let frames ← Json.listOf (Json.nullable (Json.listOf Detection.read?)) data
  return frames.map (·.getD [])

/-- The stored form of the detections of all frames. -/
def detectionFramesToJson (frames : List (List Detection)) : Json :=
  .arr (frames.map fun ds => .arr (ds.map Detection.toJson))

end Labeling
