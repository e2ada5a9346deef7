import Labeling.Detection
import Labeling.Item
import Labeling.Canvas.Stage

/-!
# Putting detections on tracks

The engine holds the detections of all frames of one item and the number of the track
that is being labeled. A click gives that number to the nearest detection of the frame
that is on no track, and leads on to the next frame that has one. When there is none
left after the frame, the track is ended and labeling goes on from the first frame that
still has one. A click on a detection that is on a track takes it off again.

Detections come from two places: computed ones, and stored ones that were labeled
before. Stored ones win, whichever arrives first.

Numbers and sizes are 64-bit integers. Past the greatest one they wrap around, as they do
in a release build; a build that checks its arithmetic stops there instead.

* `TrackEngine.nearestUnlabeled?` and `TrackEngine.hit?` find a detection;
* `TrackEngine.click` is one step of labeling;
* `TrackEngine.applyFresh` and `TrackEngine.applyStored` load detections;
* `TrackEngine.clickFits` tells that nothing wraps around in a click.
-/

namespace Labeling

/-- The detections of an item and the state of its labeling. -/
structure TrackEngine where
  frames : List (List Detection)
  /-- Metadata that is stored with the detections. -/
  metadata : Option Json
  /-- The number of the track that is being labeled. -/
  next : Int
  /-- Stored detections were loaded, which computed ones must not replace. -/
  hasStored : Bool

/-- What a click did. -/
inductive TrackClick where
  /-- A detection was taken off its track. -/
  | unlabeled (detection : Nat)
  /-- A detection, if there was one, was put on the track; labeling goes on elsewhere. -/
  | assigned (detection : Option Nat) (nextFrame : Nat) (ended : Bool)
  deriving DecidableEq, Repr

namespace TrackEngine

/-- An engine without frames. -/
def empty : TrackEngine := ⟨[], none, 1, false⟩

/-! ## Loading -/

/-- Begin an item with a number of empty frames. -/
def reset (frameCount : Nat) : TrackEngine := ⟨List.replicate frameCount [], none, 1, false⟩

/-- Take computed detections, for as many frames as there are; refused once stored
detections were loaded. -/
def applyFresh (e : TrackEngine) (frames : List (List Detection)) : Bool × TrackEngine :=
  if e.hasStored then (false, e)
  else (true, { e with frames := resized e.frames.length [] frames })

/-- Take the metadata of computed detections; refused once stored ones were loaded. -/
def applyFreshMetadata (e : TrackEngine) (metadata : Json) : Bool × TrackEngine :=
  if e.hasStored then (false, e) else (true, { e with metadata := some metadata })

/-- The tracks that detections are on. -/
def tracks (frames : List (List Detection)) : List Int :=
  frames.flatten.filterMap Detection.track

/-- The number that follows a track's; after the greatest one comes the least. -/
def following (number : Int) : Int := wrapInt64 (number + 1)

/-- The first track number after some that are in use, and at least 1. -/
def nextAfter (tracks : List Int) : Int :=
  match tracks.max? with
  | none => 1
  | some last => max (following last) 1

/-- Take stored detections and go on after their greatest track; an empty list is
ignored. -/
def applyStored (e : TrackEngine) (frames : List (List Detection)) (metadata : Option Json) :
    Bool × TrackEngine :=
  if frames.isEmpty then (false, e)
  else (true, ⟨frames, metadata, nextAfter (tracks frames), true⟩)

/-! ## Finding detections -/

/-- The detections of a frame; a frame that does not exist has none. -/
def frame (e : TrackEngine) (index : Nat) : List Detection := e.frames[index]?.getD []

section Search

variable {α : Type} [Scalar α]

/-- The nearest detection so far, with its distance, compared with the next one. Of two
at the same distance the first stays. -/
def closer (p : Point α) (best : Option (Nat × α)) (index : Nat) (d : Detection) :
    Option (Nat × α) :=
  if d.isLabeled then best
  else
    let distance := d.topLeft.distanceSq p
    match best with
    | none => some (index, distance)
    | some (_, least) => if Scalar.lt distance least then some (index, distance) else best

/-- The nearest detection from an index on. -/
def nearestFrom (p : Point α) : Option (Nat × α) → Nat → List Detection → Option (Nat × α)
  | best, _, [] => best
  | best, index, d :: rest => nearestFrom p (closer p best index d) (index + 1) rest

/-- The detection on no track whose top-left corner is nearest; of several the first. -/
def nearestUnlabeled? (e : TrackEngine) (frame : Nat) (p : Point α) : Option Nat :=
  (nearestFrom p none 0 (e.frame frame)).map Prod.fst

/-- A position is on the rectangle of a detection or on its stroke. -/
def isOn (d : Detection) (p : Point α) : Bool :=
  let r : Rect α := d.rect
  r.contains p || Scalar.le (r.borderDistance p) (Scalar.half Style.strokeWidth)

/-- The detection on top at a position. -/
def hit? (e : TrackEngine) (frame : Nat) (p : Point α) : Option Nat :=
  topmost? (fun d => isOn d p) (e.frame frame)

end Search

/-- The first frame with a detection on no track, of some frames that begin at an index. -/
def firstUnlabeled? : Nat → List (List Detection) → Option Nat
  | _, [] => none
  | index, ds :: rest =>
    if ds.any (fun d => !d.isLabeled) then some index else firstUnlabeled? (index + 1) rest

/-- The first frame, not before a start, with a detection on no track. -/
def unlabeledFrameFrom? (e : TrackEngine) (start : Nat) : Option Nat :=
  firstUnlabeled? start (e.frames.drop start)

/-! ## Labeling -/

/-- Put a detection on a track, or take it off. -/
def setTrack (e : TrackEngine) (frame index : Nat) (track : Option Int) : TrackEngine :=
  { e with frames := e.frames.modify frame fun ds => ds.modify index fun d => { d with track } }

/-- End the track, and return the first frame that still has a detection on no track. -/
def endTrack (e : TrackEngine) : Option Nat × TrackEngine :=
  (e.unlabeledFrameFrom? 0, { e with next := following e.next })

section Click

variable {α : Type} [Scalar α]

/-- Put the nearest detection on the track. -/
def assignNearest (e : TrackEngine) (frame : Nat) (p : Point α) : Option Nat × TrackEngine :=
  match e.nearestUnlabeled? frame p with
  | none => (none, e)
  | some index => (some index, e.setTrack frame index (some e.next))

/-- Take the detection at a position off its track. -/
def unlabelAt (e : TrackEngine) (frame : Nat) (p : Point α) : Option Nat × TrackEngine :=
  match e.hit? frame p with
  | none => (none, e)
  | some index =>
    match (e.frame frame)[index]? with
    | some d => if d.isLabeled then (some index, e.setTrack frame index none) else (none, e)
    | none => (none, e)

/-- A click at a position of a frame. -/
def click (e : TrackEngine) (frame : Nat) (p : Point α) : TrackClick × TrackEngine :=
  match e.unlabelAt frame p with
  | (some index, e) => (.unlabeled index, e)
  | (none, _) =>
    let (index, e) := e.assignNearest frame p
    match e.unlabeledFrameFrom? (wrapUInt64 (frame + 1)) with
    | some next => (.assigned index next false, e)
    | none =>
      let (next, e) := e.endTrack
      (.assigned index (next.getD frame) true, e)

end Click

/-! ## Limits of the numbers -/

/-- There is a number after that of the track. -/
def numberFits (e : TrackEngine) : Bool := isInt64 (e.next + 1)

section Fits

variable {α : Type} [Scalar α]

/-- The sizes fit of the detections from the last one down to the one on top, which are
those that the search for it looks at. -/
def hitFits (e : TrackEngine) (frame : Nat) (p : Point α) : Bool :=
  ((e.frame frame).drop ((e.hit? frame p).getD 0)).all Detection.sizeFits

/-- A click computes nothing that does not fit. -/
def clickFits (e : TrackEngine) (frame : Nat) (p : Point α) : Bool :=
  e.hitFits frame p &&
    match (e.click frame p).1 with
    | .unlabeled _ => true
    | .assigned _ _ ended => isUInt64 (frame + 1) && (!ended || e.numberFits)

end Fits

/-! ## Handing in and showing -/

/-- The detections of all frames as they are stored. -/
def data (e : TrackEngine) : Json := detectionFramesToJson e.frames

/-- The elements that show detections, from an index on. -/
def visualsFrom {α : Type} [Scalar α] : Nat → List Detection → List (Visual α)
  | _, [] => []
  | index, d :: rest =>
    let color := if d.isLabeled then Style.labeledColor else Style.unlabeledColor
    { Visual.outline (.rect d.rect) color (Scalar.ofInt Style.strokeWidth) with
        index := some index } :: visualsFrom (index + 1) rest

/-- The scene of a frame. -/
def scene {α : Type} [Scalar α] (e : TrackEngine) (frame : Nat) (stage : Stage α) : Scene α :=
  match stage.blankScene? with
  | none => .none
  | some scene => { scene with layer := visualsFrom 0 (e.frame frame) }

end TrackEngine

end Labeling
