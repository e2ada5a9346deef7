import Labeling.Request
import Labeling.Canvas.Edit

/-!
# What a tool sees and asks for

A tool is called with a view of the session and answers with commands, which the
session carries out once the call is over. The calls are events (`ToolEvent`): what
happened to the item and what the user did with the pointer and the keyboard.
-/

namespace Labeling

/-- What a tool sees of the session. -/
structure View where
  annotationSet : AnnotationSet
  /-- The item that is shown. -/
  assignment : Option Assignment
  itemMeta : Option ItemMeta
  /-- The frame that is shown. -/
  frame : Option Nat
  frameCount : Nat
  /-- The size of the image of the frame, once it is loaded. -/
  dims : Option Dims

namespace View

/-- The view of a session that shows no item. -/
def ofSet (annotationSet : AnnotationSet) : View :=
  { annotationSet, assignment := none, itemMeta := none, frame := none, frameCount := 0
    dims := none }

/-- The image is loaded, so that drawing shows something. -/
def isRendered (v : View) : Bool := v.dims.isSome

end View

/-- What a tool asks the session to do. -/
inductive Command where
  | fetch (purpose : ToolPurpose) (request : Request)
  | goToFrame (frame : Nat)
  | finishFrame
  | annotateItem
  | reportError (message : String)
  deriving DecidableEq, Repr

/-- What a tool is told. -/
inductive ToolEvent where
  /-- The annotation set is known. -/
  | ready
  /-- A new item is shown. -/
  | itemShown
  /-- The stored annotations of the item arrived. -/
  | stored (data : Json)
  /-- The image of the frame is loaded. -/
  | imageLoaded
  /-- A request of the tool is answered. -/
  | fetched (purpose : ToolPurpose) (result : Response)
  | key (e : KeyEvent)
  | click (pos : Point Float)
  | pointerMove (pos : Point Float)
  | dragStart (pos : Point Float)
  | dragMove (pos : Point Float)
  | dragEnd
  | resize (width height : Float)
  | render

/-- What a call of a tool comes to: the tool afterwards, its commands and its answer. -/
structure Outcome (τ : Type) where
  tool : τ
  commands : List Command
  reply : Reply

namespace Outcome

variable {τ υ : Type}

/-- Only the tool changed. -/
def quiet (tool : τ) : Outcome τ := ⟨tool, [], .nothing⟩

/-- The same call of a tool that is one of several. -/
def map (f : τ → υ) (o : Outcome τ) : Outcome υ := ⟨f o.tool, o.commands, o.reply⟩

end Outcome

/-- What is answered to an event that a tool does not react to: a key is not consumed
and a drag grabs nothing. -/
def ToolEvent.ignored : ToolEvent → Reply
  | .key _ => .flag false
  | .dragStart _ => .flag false
  | _ => .nothing

end Labeling
