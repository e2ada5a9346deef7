import Labeling.Tool.View
import Labeling.Text.LeadingInt
import Labeling.Json.Reader

/-!
# The integer tool

Gives every frame an integer, picked by a button, by a digit key or typed into a text
field. With a positive range there is a button for every integer below it; with any
other range the integer is typed.

Labels are kept as the text of the field. What is handed in for a frame is the integer
at the start of its text, or minus one if there is none.
-/

namespace Labeling

/-- The tool that labels frames with integers. -/
structure LabelTool where
  range : Int
  /-- The parameters as they were stored; those other than the range are stored again as
  they were. -/
  params : Fields Json
  /-- The text of every frame; empty if there is none. -/
  labels : List String

namespace LabelTool

/-! ## The range -/

/-- The range when none is given. -/
def defaultRange : Int := 2

/-- The range given by a stored number; zero counts as none. -/
def rangeOfInt (n : Int) : Int := if n = 0 then defaultRange else n

/-- The range given by a stored value. A text is read by its leading integer. -/
def rangeOf (v : Json) : Int :=
  match v with
  | .int n => rangeOfInt (if isInt64 n then n else (Float.ofInt n).toInt64.toInt)
  | .float x => rangeOfInt x.toInt64.toInt
  | .str s => if s.isEmpty then defaultRange else (leadingInt? s).getD 0
  | _ => defaultRange

/-- The stored parameters; anything but an object counts as none. -/
def paramsOf (set : AnnotationSet) : Fields Json :=
  match set.params.bind Json.ofText? with
  | some (.obj fields) => fields
  | _ => []

/-- The tool of an annotation set. -/
def new (set : AnnotationSet) : LabelTool :=
  let params := paramsOf set
  { range := ((Fields.get? params "Range").map rangeOf).getD defaultRange, params, labels := [] }

/-- The buttons, for the integers from zero up to but not including a bound. -/
def buttonBound (t : LabelTool) : Int := max t.range 0

/-- The integer is typed into a text field. -/
def usesTextField (t : LabelTool) : Bool := t.range ≤ 0

/-- The parameters to store. -/
def paramsJson (t : LabelTool) : Json := .obj (Fields.insert "Range" (.int t.range) t.params)

/-! ## Labels -/

/-- Set the text of the frame that is shown, if one is shown. -/
def setInput (t : LabelTool) (v : View) (text : String) : Bool × LabelTool :=
  match v.frame with
  | none => (false, t)
  | some k =>
    if k < t.labels.length then (true, { t with labels := t.labels.set k text }) else (false, t)

/-- Label the frame that is shown with an integer, and go on. -/
def pressButton (t : LabelTool) (v : View) (value : Int) : Outcome LabelTool :=
  match t.setInput v (toString value) with
  | (true, t) => ⟨t, [.finishFrame], .nothing⟩
  | (false, t) => .quiet t

/-- Accept the text of the frame that is shown, and go on. -/
def submitInput (t : LabelTool) (v : View) : Outcome LabelTool :=
  ⟨t, if v.frame.isSome then [.finishFrame] else [], .nothing⟩

/-- The text of a stored value: a text as it is, and anything else as JSON. -/
def labelOf : Json → String
  | .str s => s
  | v => v.text

/-- Take stored labels for as many frames as the item has. Anything but a list with
items is ignored. -/
def load (t : LabelTool) (v : View) (data : Json) : LabelTool :=
  match data with
  | .arr (first :: rest) =>
    { t with labels := resized v.frameCount "" ((first :: rest).map labelOf) }
  | _ => t

/-- What is handed in for a text. -/
def valueOf (text : String) : Int := (leadingInt? text).getD (-1)

/-- The labels to hand in. -/
def annotations (t : LabelTool) : Json := .arr (t.labels.map fun s => .int (valueOf s))

/-- A digit key going down outside text fields presses the button of its digit. -/
def handleKey (t : LabelTool) (v : View) (e : KeyEvent) : Outcome LabelTool :=
  match e.key.digit? with
  | none => ⟨t, [], .flag false⟩
  | some n =>
    if !e.isPress || e.inField then ⟨t, [], .flag false⟩
    else { t.pressButton v n with reply := .flag true }

/-- React to an event. -/
def handle (t : LabelTool) (v : View) : ToolEvent → Outcome LabelTool
  | .itemShown => .quiet { t with labels := List.replicate v.frameCount "" }
  | .stored data => .quiet (t.load v data)
  | .key e => t.handleKey v e
  | e => ⟨t, [], e.ignored⟩

end LabelTool

end Labeling
