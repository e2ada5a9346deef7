import Labeling.Tool.View
import Labeling.Tracking.Engine

/-!
# The track tool

Puts the detections of the second input dataset on tracks, one click a frame. When an
item is shown the tool asks for its detections and for their metadata. Stored tracks
take precedence over them, whichever arrives first.
-/

namespace Labeling

/-- The tool that puts detections on tracks. -/
structure TrackTool where
  engine : TrackEngine
  stage : Stage Float
  scene : Scene Float
  /-- The key that ends a track. -/
  endKey : Key

namespace TrackTool

/-- The tool before any item. -/
def new (bindings : KeyBindings) : TrackTool :=
  { engine := .empty, stage := .empty, scene := .none, endKey := bindings.endTrack }

/-- Draw the frame that is shown. -/
def render (t : TrackTool) (v : View) : TrackTool :=
  { t with scene := match v.frame with
      | some frame => t.engine.scene frame t.stage
      | none => .none }

/-- Ask for an item of the detections. -/
def fetchItem (dataset : Int) (key : String) (purpose : ToolPurpose) (format : ItemFormat) :
    Command :=
  .fetch purpose (.item dataset key format true)

/-- Begin an item: empty frames, and requests for what was computed for it. Without a
second input dataset there is nothing to ask for. -/
def itemShown (t : TrackTool) (v : View) : Outcome TrackTool :=
  let t := { t with engine := .reset v.frameCount }
  match v.assignment, v.annotationSet.inputs[1]? with
  | some assignment, some detections =>
    ⟨t, [fetchItem detections.id assignment.key .freshDetections .json,
      fetchItem detections.id assignment.key .freshMetadata .metadata], .nothing⟩
  | _, _ => .quiet t

/-- Take stored tracks, with the metadata of the item. -/
def load (t : TrackTool) (v : View) (data : Json) : TrackTool :=
  match detectionFrames? data with
  | none => t
  | some frames =>
    match t.engine.applyStored frames (v.itemMeta.map fun m => m.toJson.sorted) with
    | (true, engine) => { t with engine }.render v
    | (false, _) => t

/-- Take what was computed. -/
def applyFresh (t : TrackTool) (purpose : ToolPurpose) (value : Json) : TrackTool :=
  match purpose with
  | .freshDetections =>
    match detectionFrames? value with
    | some frames => { t with engine := (t.engine.applyFresh frames).2 }
    | none => t
  | .freshMetadata => { t with engine := (t.engine.applyFreshMetadata value).2 }
  | _ => t

/-- The answer to a request of the tool. -/
def fetched (t : TrackTool) (v : View) (purpose : ToolPurpose) (result : Response) :
    Outcome TrackTool :=
  match result.json with
  | .ok value => .quiet ((t.applyFresh purpose value).render v)
  | .error f => ⟨t, [.reportError f.userMessage], .nothing⟩

/-- Attach the image of the frame, and draw. -/
def imageLoaded (t : TrackTool) (v : View) : TrackTool :=
  let t := match v.dims with
    | some dims => { t with stage := t.stage.attach dims }
    | none => t
  t.render v

/-- End the track and show the first frame that still has a detection on no track, or
else the current frame again. -/
def endTrack (t : TrackTool) (v : View) : Outcome TrackTool :=
  let (next, engine) := t.engine.endTrack
  let target := match next with
    | some frame => some frame
    | none => v.frame
  ⟨{ t with engine }, (target.map Command.goToFrame).toList, .nothing⟩

/-- A click at a position on the screen. -/
def click (t : TrackTool) (v : View) (pos : Point Float) : Outcome TrackTool :=
  match v.frame with
  | none => .quiet t
  | some frame =>
    if t.stage.isAttached then
      match t.engine.click frame (t.stage.toNatural pos) with
      | (.unlabeled _, engine) => .quiet ({ t with engine }.render v)
      | (.assigned _ next _, engine) => ⟨{ t with engine }, [.goToFrame next], .nothing⟩
    else .quiet t

/-- The key that ends a track does so when it goes up outside text fields. -/
def handleKey (t : TrackTool) (v : View) (e : KeyEvent) : Outcome TrackTool :=
  if e.isPress || e.inField || e.key ≠ t.endKey then ⟨t, [], .flag false⟩
  else { t.endTrack v with reply := .flag true }

/-- Forget the frame that was shown. -/
def resetFrame (t : TrackTool) : TrackTool := { t with stage := t.stage.detach, scene := .none }

/-- React to an event. -/
def handle (t : TrackTool) (v : View) : ToolEvent → Outcome TrackTool
  | .itemShown => t.itemShown v
  | .stored data => .quiet (t.load v data)
  | .imageLoaded => .quiet (t.imageLoaded v)
  | .fetched purpose result => t.fetched v purpose result
  | .key e => t.handleKey v e
  | .click p => t.click v p
  | .resize width height => .quiet ({ t with stage := t.stage.resize width height }.render v)
  | .render => .quiet (t.render v)
  | e => ⟨t, [], e.ignored⟩

end TrackTool

end Labeling
