import Labeling.Failure
import Labeling.Geometry.Point
import Labeling.Item

/-!
# Requests

A request describes a call to the backend: its method, path, query and body. The
session only describes requests; whoever carries one out hands the result back with
the ticket that came with it. The ticket says why the request was made.

* `Request` and `Payload` are the two sides of a call;
* `Purpose` is the reason for a request, and `Ticket` identifies one.
-/

namespace Labeling

/-! ## Calls -/

/-- The method of a call. -/
inductive Method where
  | get
  | post
  deriving DecidableEq, Repr

/-- The form in which an item is fetched. -/
inductive ItemFormat where
  /-- What is known about the item. -/
  | metadata
  /-- The stored annotations. -/
  | json
  deriving DecidableEq, Repr

/-- The name of a form. -/
def ItemFormat.name : ItemFormat → String
  | .metadata => "meta"
  | .json => "json"

/-- A call to the backend. -/
inductive Request where
  /-- Fetch an annotation set. -/
  | annotationSet (id : Int)
  /-- Ask which item to label, or for a stored one by its key. -/
  | nextItem (path : String) (key : Option String)
  /-- Fetch an item. A fresh one must not come from a cache. -/
  | item (dataset : Int) (key : String) (format : ItemFormat) (fresh : Bool)
  /-- List the items of a dataset. -/
  | listing (dataset : Int)
  /-- Hand in annotations. -/
  | submit (path : String) (body : Submission)
  /-- Store the parameters of a tool. -/
  | saveParams (id : Int) (params : String)
  /-- Load the image of an item, or of a frame of a video. -/
  | frameImage (dataset : Int) (key : String) (frame : Option Nat)
  deriving DecidableEq, Repr

namespace Request

/-- The method of a request. -/
def method : Request → Method
  | .submit _ _ => .post
  | .saveParams _ _ => .post
  | _ => .get

/-- The path below the root of the server. -/
def path : Request → String
  | .annotationSet id => "/annotate-datasets/" ++ toString id
  | .saveParams id _ => "/annotate-datasets/" ++ toString id
  | .nextItem path _ => path
  | .submit path _ => path
  | .item dataset key _ _ => "/datasets/" ++ toString dataset ++ "/items/" ++ key ++ "/get"
  | .listing dataset => "/datasets/" ++ toString dataset ++ "/items"
  | .frameImage dataset key frame =>
    "/datasets/" ++ toString dataset ++ "/items/" ++ key ++
      if frame.isSome then "/get-video-frame" else "/get"

/-- The query. A request for a fresh item carries a time, so that no cache knows the
answer. -/
def query (time : String) : Request → List (String × String)
  | .nextItem _ (some key) => [("key", key)]
  | .item _ _ format fresh => ("format", format.name) :: if fresh then [("t", time)] else []
  | .frameImage _ _ (some frame) => [("idx", toString frame)]
  | .frameImage _ _ none => [("format", "jpeg")]
  | _ => []

/-- The body, as JSON. -/
def body : Request → Option Json
  | .submit _ body => some body.toJson
  | .saveParams _ params => some (.obj [("Params", .str params)])
  | _ => none

/-- The answer is an image. -/
def wantsImage : Request → Bool
  | .frameImage _ _ _ => true
  | _ => false

end Request

/-! ## Answers -/

/-- The answer to a call that succeeded. -/
inductive Payload where
  /-- JSON; an empty body is `null`. -/
  | json (value : Json)
  /-- An image, of which the size is known. -/
  | image (dims : Dims)

/-- The outcome of a call. -/
abbrev Response : Type := Except Failure Payload

namespace Payload

/-- The JSON of an answer. -/
def toJson : Payload → Except Failure Json
  | .json value => .ok value
  | .image _ => .error (.unexpectedPayload .json)

/-- The size of the image of an answer. -/
def imageDims : Payload → Except Failure Dims
  | .image dims => .ok dims
  | .json _ => .error (.unexpectedPayload .image)

end Payload

namespace Response

/-- The JSON of an answer, unless the call failed. -/
def json (r : Response) : Except Failure Json := do (← r).toJson

/-- What the JSON of an answer holds, unless the call failed. -/
def parse {α : Type} (read : Json → Option α) (r : Response) : Except Failure α := do
  match read (← r.json) with
  | some a => .ok a
  | none => .error (.json Json.unreadable)

/-- The size of the image of an answer, unless the call failed. -/
def imageDims (r : Response) : Except Failure Dims := do (← r).imageDims

end Response

/-! ## Tickets -/

/-- Why a tool made a request. -/
inductive ToolPurpose where
  /-- Computed detections of the item. -/
  | freshDetections
  /-- The metadata of computed detections. -/
  | freshMetadata
  /-- The stored feature collection. -/
  | featureCollection
  /-- The feature collection was handed in. -/
  | saveFeatures
  deriving DecidableEq, Repr

/-- Why a request was made, which decides what its answer does. -/
inductive Purpose where
  | annotationSet
  /-- Which item to label. -/
  | assignment
  /-- What is known about the item that was chosen. -/
  | itemMeta (assignment : Assignment)
  /-- The stored annotations of the current item. -/
  | existingData
  /-- The listing from which an item is to be shown. -/
  | keyList (index : Int)
  | submit
  | saveParams
  /-- The image of the frame with a number. -/
  | frameImage (frameSeq : Nat)
  | tool (purpose : ToolPurpose)
  deriving DecidableEq, Repr

namespace Purpose

/-- The request helps to choose which item is shown. Only the last choice counts. -/
def isNavigation : Purpose → Bool
  | .assignment => true
  | .itemMeta _ => true
  | .keyList _ => true
  | _ => false

/-- The answer belongs to the item that was current when the request was made. -/
def isItemScoped : Purpose → Bool
  | .existingData => true
  | .tool _ => true
  | _ => false

end Purpose

/-- Identifies a request. -/
structure Ticket where
  id : Nat
  purpose : Purpose
  /-- The number of the choice of an item, or of the item itself, when the request was
  made. -/
  generation : Nat
  deriving DecidableEq, Repr

end Labeling
