import Labeling.Json.Record
import Labeling.Json.Reader

/-!
# Datasets and annotation sets

A dataset is a list of items of one data type. An annotation set is a labeling task:
the input datasets, of which the first is displayed, the dataset that receives the
annotations, and the tool with its parameters. Data types and tools the program does
not know are kept by name, so that they are written back as they were read.
-/

namespace Labeling

/-! ## Data types and tools -/

/-- The data type of a dataset. -/
inductive DataType where
  | image
  | video
  | detection
  | shape
  | int
  | geoJson
  /-- A type that no tool interprets. -/
  | other (name : String)
  deriving DecidableEq, Repr

/-- The data type of a name. -/
def DataType.ofName : String → DataType
  | "image" => .image
  | "video" => .video
  | "detection" => .detection
  | "shape" => .shape
  | "int" => .int
  | "geojson" => .geoJson
  | name => .other name

/-- The name of a data type. -/
def DataType.name : DataType → String
  | .image => "image"
  | .video => "video"
  | .detection => "detection"
  | .shape => "shape"
  | .int => "int"
  | .geoJson => "geojson"
  | .other name => name

/-- The tool of an annotation set. -/
inductive ToolKind where
  | shape
  | int
  | detectionToTrack
  | geoJson
  /-- A tool that is not built in. -/
  | other (name : String)
  deriving DecidableEq, Repr

/-- The tool of a name. -/
def ToolKind.ofName : String → ToolKind
  | "shape" => .shape
  | "int" => .int
  | "detection-to-track" => .detectionToTrack
  | "geojson" => .geoJson
  | name => .other name

/-- The name of a tool. -/
def ToolKind.name : ToolKind → String
  | .shape => "shape"
  | .int => "int"
  | .detectionToTrack => "detection-to-track"
  | .geoJson => "geojson"
  | .other name => name

/-! ## Datasets -/

/-- A dataset as the backend describes it. -/
structure Dataset where
  id : Int
  name : String
  dataType : DataType
  deriving DecidableEq, Repr

/-- Read a dataset. Its name may be missing. -/
def Dataset.read? {ν : Type} [Source ν] (v : ν) : Option Dataset := do
  let r ← Source.recordOf v 3
  return {
    id := ← r.required 0 "ID" (Source.leaf Json.int?)
    name := ← r.given 1 ["Name"] (Source.leaf Json.str?) ""
    dataType := .ofName (← r.required 2 "DataType" (Source.leaf Json.str?)) }

/-- A dataset as a record. -/
def Dataset.toJson (d : Dataset) : Json :=
  .obj [("ID", .int d.id), ("Name", .str d.name), ("DataType", .str d.dataType.name)]

/-! ## Annotation sets -/

/-- A configured labeling task. -/
structure AnnotationSet where
  id : Int
  /-- The dataset that receives the annotations. -/
  dataset : Dataset
  /-- The source datasets in order; the first one is displayed. -/
  inputs : List Dataset
  tool : ToolKind
  /-- The parameters of the tool, as JSON text. -/
  params : Option String
  deriving DecidableEq, Repr

namespace AnnotationSet

/-- Read an annotation set. The inputs have two names, of which one may be given. -/
def read? {ν : Type} [Source ν] (v : ν) : Option AnnotationSet := do
  let r ← Source.recordOf v 5
  return {
    id := ← r.required 0 "ID" (Source.leaf Json.int?)
    dataset := ← r.required 1 "Dataset" Dataset.read?
    inputs := ← r.given 2 ["InputDatasets", "Inputs"]
      (fun v => do (← Source.items? v).mapM Dataset.read?) []
    tool := .ofName (← r.required 3 "Tool" (Source.leaf Json.str?))
    params := ← r.optional 4 "Params" Json.str? }

/-- An annotation set as a record. -/
def toJson (s : AnnotationSet) : Json :=
  .obj [("ID", .int s.id), ("Dataset", s.dataset.toJson),
    ("InputDatasets", .arr (s.inputs.map Dataset.toJson)), ("Tool", .str s.tool.name),
    ("Params", .option .str s.params)]

/-- The path from which items to label are fetched and to which annotations go. -/
def annotatePath (s : AnnotationSet) : String :=
  "/annotate-datasets/" ++ toString s.id ++ "/annotate"

/-- The dataset that is displayed. -/
def source? (s : AnnotationSet) : Option Dataset := s.inputs.head?

/-- The data type of the dataset that is displayed. -/
def sourceType? (s : AnnotationSet) : Option DataType := s.source?.map Dataset.dataType

/-- The data type of the annotations. -/
def dataType (s : AnnotationSet) : DataType := s.dataset.dataType

/-- The parameters as a document, if there are any and they are JSON. -/
def paramsDocument? (s : AnnotationSet) : Option Document := do
  Document.ofText? (← s.params)

end AnnotationSet

end Labeling
