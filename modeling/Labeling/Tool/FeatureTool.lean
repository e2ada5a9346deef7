import Labeling.Tool.View
import Labeling.Feature
import Labeling.Json.Reader

/-!
# The feature tool

Edits one collection of map features, which is stored as a single item under a fixed
key. The collection is fetched when the annotation set is known, and handed in when the
user saves it. That there is no such item yet is not an error. The map is shown once a
server for its tiles is given.
-/

namespace Labeling

/-- The tool that edits map features. -/
structure FeatureTool where
  /-- The address of the map tiles; empty if there is none. -/
  tileUrl : String
  collection : FeatureCollection
  /-- The stored collection was fetched, or found missing. -/
  loaded : Bool

namespace FeatureTool

/-- The key of the item that holds the collection. -/
def itemKey : String := "geojson"

/-- Read the address of the map tiles from parameters. -/
def readTileUrl? {ν : Type} [Source ν] (v : ν) : Option (Option String) := do
  let r ← Source.recordOf v 1
  r.optional 0 "TileURL" Json.str?

/-- The tool of an annotation set. -/
def new (set : AnnotationSet) : FeatureTool :=
  { tileUrl := ((set.paramsDocument?.bind readTileUrl?).join).getD ""
    collection := .empty, loaded := false }

/-- The map is shown. -/
def showsMap (t : FeatureTool) : Bool := !t.tileUrl.isEmpty

/-- Add a feature, or all features of a collection. -/
def add (t : FeatureTool) (feature : Json) : FeatureTool :=
  { t with collection := t.collection.add feature }

/-- Replace a feature, if there is one at the index. -/
def replace (t : FeatureTool) (index : Nat) (feature : Json) : Bool × FeatureTool :=
  if index < t.collection.features.length then
    (true, { t with collection :=
      { t.collection with features := t.collection.features.set index feature } })
  else (false, t)

/-- Remove a feature, if there is one at the index. -/
def remove (t : FeatureTool) (index : Nat) : Option Json × FeatureTool :=
  match t.collection.features[index]? with
  | some feature => (some feature, { t with collection :=
      { t.collection with features := t.collection.features.eraseIdx index } })
  | none => (none, t)

/-- Hand in the collection. -/
def save (t : FeatureTool) (v : View) : Outcome FeatureTool :=
  ⟨t, [.fetch .saveFeatures
    (.submit v.annotationSet.annotatePath (.json itemKey t.collection.toJson none))], .nothing⟩

/-- The parameters to store. -/
def paramsJson (t : FeatureTool) : Json := .obj [("TileURL", .str t.tileUrl)]

/-- Ask for the stored collection. -/
def ready (t : FeatureTool) (v : View) : Outcome FeatureTool :=
  ⟨t, [.fetch .featureCollection (.item v.annotationSet.dataset.id itemKey .json true)], .nothing⟩

/-- Take the stored collection; a value that is none is ignored. -/
def load (t : FeatureTool) (value : Json) : FeatureTool :=
  match FeatureCollection.ofJson? value with
  | some collection => { t with collection, loaded := true }
  | none => { t with loaded := true }

/-- The answer to a request of the tool. -/
def fetched (t : FeatureTool) (purpose : ToolPurpose) (result : Response) : Outcome FeatureTool :=
  match purpose, result.json with
  | .featureCollection, .ok value => .quiet (t.load value)
  | .featureCollection, .error f =>
    if f.isNoSuchItem then .quiet { t with loaded := true }
    else ⟨t, [.reportError f.userMessage], .nothing⟩
  | _, .ok _ => .quiet t
  | _, .error f => ⟨t, [.reportError f.userMessage], .nothing⟩

/-- React to an event. -/
def handle (t : FeatureTool) (v : View) : ToolEvent → Outcome FeatureTool
  | .ready => t.ready v
  | .fetched purpose result => t.fetched purpose result
  | e => ⟨t, [], e.ignored⟩

end FeatureTool

end Labeling
