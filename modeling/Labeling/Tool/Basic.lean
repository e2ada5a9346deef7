import Labeling.Tool.ShapeTool
import Labeling.Tool.LabelTool
import Labeling.Tool.TrackTool
import Labeling.Tool.FeatureTool

/-!
# Tools

A session has one tool, chosen by its annotation set. `Tool.handle` passes an event on
to it, and `Tool.perform` carries out what the user does in the tool's own controls,
given as data (`ToolOp`); an operation that the tool does not have is not carried out.
-/

namespace Labeling

/-- The tool of a session. -/
inductive Tool where
  | shape (t : ShapeTool)
  | int (t : LabelTool)
  | track (t : TrackTool)
  | geoJson (t : FeatureTool)

/-- An operation of a tool's own controls. -/
inductive ToolOp where
  | setMode (mode : DrawMode)
  | setCategories (text : String)
  | setCategory (category : String)
  | setSelectedCategory (category : String)
  | setSelectedTrack (text : String)
  | deleteSelection
  | cancelDraw
  | setRange (range : Int)
  | pressButton (value : Int)
  | setInput (text : String)
  | submitInput
  | endTrack
  | addFeature (feature : Json)
  | replaceFeature (index : Nat) (feature : Json)
  | removeFeature (index : Nat)
  | saveFeatures
  | setTileUrl (url : String)
  /-- Draw the frame that is shown. -/
  | render
  /-- Ask the session for something. -/
  | command (c : Command)

namespace Tool

/-- The tool of an annotation set, if it is built in. -/
def ofSet? (set : AnnotationSet) (bindings : KeyBindings) : Option Tool :=
  match set.tool with
  | .shape => some (.shape (.new set bindings))
  | .int => some (.int (.new set))
  | .detectionToTrack => some (.track (.new bindings))
  | .geoJson => some (.geoJson (.new set))
  | .other _ => none

/-- The kind of a tool. -/
def kind : Tool → ToolKind
  | .shape _ => .shape
  | .int _ => .int
  | .track _ => .detectionToTrack
  | .geoJson _ => .geoJson

/-- The tool goes through items and their frames. The feature tool edits a single item. -/
def drivesItems : Tool → Bool
  | .geoJson _ => false
  | _ => true

/-- Pass an event on. -/
def handle (t : Tool) (v : View) (e : ToolEvent) : Outcome Tool :=
  match t with
  | .shape t => (t.handle v e).map .shape
  | .int t => (t.handle v e).map .int
  | .track t => (t.handle v e).map .track
  | .geoJson t => (t.handle v e).map .geoJson

/-- Forget the frame that was shown. -/
def resetFrame : Tool → Tool
  | .shape t => .shape t.resetFrame
  | .int t => .int t
  | .track t => .track t.resetFrame
  | .geoJson t => .geoJson t

/-- The annotations of the item and their metadata, as they are handed in. -/
def annotations (t : Tool) (v : View) : Json × Option Json :=
  match t with
  | .shape t => t.annotations v
  | .int t => (t.annotations, none)
  | .track t => (t.engine.data, t.engine.metadata)
  | .geoJson t => (t.collection.toJson, none)

/-- The scene, if the tool draws one. -/
def scene? : Tool → Option (Scene Float)
  | .shape t => some t.canvas.scene
  | .track t => some t.scene
  | _ => none

/-- The parameters to store, if the tool has any. -/
def paramsJson? : Tool → Option Json
  | .shape t => some t.params.toJson
  | .int t => some t.paramsJson
  | .track _ => none
  | .geoJson t => some t.paramsJson

/-! ## Operations -/

/-- Perform an operation of the shape tool. -/
def performShape (t : ShapeTool) (v : View) : ToolOp → Option (Outcome ShapeTool)
  | .setMode mode => some (.quiet (t.setMode v mode))
  | .setCategories text => some (.quiet (t.setCategories v text))
  | .setCategory category => some (t.showOutcome v (.setCategory category))
  | .setSelectedCategory category =>
    some (t.editOutcome v (.setSelectedCategory category) (.flag false))
  | .setSelectedTrack text => some (t.editOutcome v (.setSelectedTrack text) (.flag false))
  | .deleteSelection => some (t.editOutcome v .deleteSelection (.shape none))
  | .cancelDraw => some (t.showOutcome v .cancelDraw)
  | _ => none

/-- Perform an operation of the integer tool. -/
def performLabel (t : LabelTool) (v : View) : ToolOp → Option (Outcome LabelTool)
  | .setRange range => some (.quiet { t with range })
  | .pressButton value => some (t.pressButton v value)
  | .setInput text =>
    let (done, t) := t.setInput v text
    some ⟨t, [], .flag done⟩
  | .submitInput => some (t.submitInput v)
  | _ => none

/-- Perform an operation of the track tool. -/
def performTrack (t : TrackTool) (v : View) : ToolOp → Option (Outcome TrackTool)
  | .endTrack => some (t.endTrack v)
  | _ => none

/-- Perform an operation of the feature tool. -/
def performFeature (t : FeatureTool) (v : View) : ToolOp → Option (Outcome FeatureTool)
  | .addFeature feature => some (.quiet (t.add feature))
  | .replaceFeature index feature =>
    let (done, t) := t.replace index feature
    some ⟨t, [], .flag done⟩
  | .removeFeature index =>
    let (removed, t) := t.remove index
    some ⟨t, [], .feature removed⟩
  | .saveFeatures => some (t.save v)
  | .setTileUrl tileUrl => some (.quiet { t with tileUrl })
  | _ => none

/-- Perform an operation; none if the tool does not have it. Every tool can be drawn and
can ask the session for something. -/
def perform (t : Tool) (v : View) (op : ToolOp) : Option (Outcome Tool) :=
  match op with
  | .command c => some ⟨t, [c], .nothing⟩
  | .render => some (t.handle v .render)
  | op =>
    match t with
    | .shape t => (performShape t v op).map (·.map .shape)
    | .int t => (performLabel t v op).map (·.map .int)
    | .track t => (performTrack t v op).map (·.map .track)
    | .geoJson t => (performFeature t v op).map (·.map .geoJson)

end Tool

end Labeling
