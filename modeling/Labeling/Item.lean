import Labeling.Dataset.Basic
import Labeling.Json.Printer

/-!
# Items

What the session and the backend tell each other about one item: which item to label
next (`Assignment`), what is known about the source item (`ItemMeta`), and the
annotations that are handed in (`Submission`).

`frameCount` says how many frames an item has. It is never zero, so a frame number
can always be taken modulo the count. Annotations are kept as a list with one entry for
every frame; stored ones may be for more or fewer frames than the item has, and are cut
off or filled up with empty entries (`resized`).
-/

namespace Labeling

/-! ## Which item to label -/

/-- The answer to the question which item to label next. -/
structure Assignment where
  /-- The key of the item. -/
  key : String
  /-- The output dataset already holds annotations under this key. -/
  isExisting : Bool
  /-- The item's number in the output dataset, given for stored annotations. -/
  id : Option Int
  deriving DecidableEq, Repr

namespace Assignment

/-- Read an assignment. -/
def read? {ν : Type} [Source ν] (v : ν) : Option Assignment := do
  let r ← Source.recordOf v 3
  return {
    key := ← r.required 0 "Key" (Source.leaf Json.str?)
    isExisting := ← r.given 1 ["IsExisting"] (Source.leaf Json.bool?) false
    id := ← r.optional 2 "ID" Json.int? }

/-- An assignment as a record; the number is left out if there is none. -/
def toJson (a : Assignment) : Json :=
  .obj ([("Key", .str a.key), ("IsExisting", .bool a.isExisting)] ++
    (a.id.map fun n => ("ID", Json.int n)).toList)

/-- Stored annotations are to be fetched for this item. -/
def hasExisting (a : Assignment) : Bool := a.isExisting || a.id.isSome

end Assignment

/-! ## Metadata -/

/-- What is known about a source item. Still images have none of it. -/
structure ItemMeta where
  dims : Option (Nat × Nat)
  /-- Frames per second, as a fraction. -/
  framerate : Option (Nat × Nat)
  /-- In seconds. -/
  duration : Option Float
  deriving Repr

namespace ItemMeta

/-- Nothing is known. -/
def empty : ItemMeta := ⟨none, none, none⟩

/-- Read metadata. -/
def read? {ν : Type} [Source ν] (v : ν) : Option ItemMeta := do
  let r ← Source.recordOf v 3
  return {
    dims := ← r.optional 0 "Dims" (Json.pairOf Json.uint32?)
    framerate := ← r.optional 1 "Framerate" (Json.pairOf Json.uint32?)
    duration := ← r.optional 2 "Duration" Json.float? }

/-- A pair of numbers as an array. -/
def pairJson (p : Nat × Nat) : Json := .arr [.nat p.1, .nat p.2]

/-- Metadata as a record; what is not known is left out. -/
def toJson (m : ItemMeta) : Json :=
  .obj ((m.dims.map fun p => ("Dims", pairJson p)).toList ++
    (m.framerate.map fun p => ("Framerate", pairJson p)).toList ++
    (m.duration.map fun x => ("Duration", Json.float x)).toList)

end ItemMeta

/-- The greatest whole number that is not above a number. From 2^53 on all numbers are
whole. -/
def floorFloat (x : Float) : Float :=
  let size := x.abs
  if size < 9007199254740992 then
    let whole := Float.ofNat size.toUInt64.toNat
    if whole == size then x else if x < 0 then -(whole + 1) else whole
  else x

/-- The whole frames in a stretch of time; none if the rate has no denominator. -/
def wholeFrames (duration : Option Float) (framerate : Option (Nat × Nat)) : Float :=
  match duration, framerate with
  | some seconds, some (n, d) =>
    if 0 < d then floorFloat (seconds * Float.ofNat n / Float.ofNat d) else 0
  | _, _ => 0

/-- The number of frames of an item: the whole frames of a video, and one for anything
else. Metadata that yields no frame counts as one. -/
def frameCount (sourceType : DataType) (itemMeta : ItemMeta) : Nat :=
  if sourceType = .video then
    let frames := wholeFrames itemMeta.duration itemMeta.framerate
    if frames < 1 then 1 else frames.toUInt64.toNat
  else 1

/-- A list of a given length: shortened, or filled up with an item. -/
def resized {β : Type} (length : Nat) (filler : β) (items : List β) : List β :=
  items.take length ++ List.replicate (length - items.length) filler

/-! ## Submissions -/

/-- The annotations of an item on their way to the backend. -/
structure Submission where
  key : String
  /-- The annotations, as JSON text. -/
  data : String
  format : String
  /-- The metadata of the annotations, as JSON text, if the tool has any. -/
  metadata : Option String
  deriving DecidableEq, Repr

namespace Submission

/-- A submission of values written as JSON. -/
def json (key : String) (data : Json) (metadata : Option Json) : Submission :=
  { key, data := data.text, format := "json", metadata := metadata.map Json.text }

/-- A submission as a record; missing metadata is left out. -/
def toJson (s : Submission) : Json :=
  .obj ([("Key", .str s.key), ("Data", .str s.data), ("Format", .str s.format)] ++
    (s.metadata.map fun m => ("Metadata", Json.str m)).toList)

end Submission

/-! ## Listings -/

/-- Read the key of an entry of a listing. -/
def listedKey? {ν : Type} [Source ν] (v : ν) : Option String := do
  let r ← Source.recordOf v 1
  r.required 0 "Key" (Source.leaf Json.str?)

/-- Read the keys of a listing; `null` is a listing without entries. -/
def listing? (v : Json) : Option (Option (List String)) :=
  Json.nullable (Json.listOf listedKey?) v

end Labeling
