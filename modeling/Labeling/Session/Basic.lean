import Labeling.Tool.Basic
import Labeling.Config

/-!
# The session

A session leads one annotation set through its items and their frames. It carries out
nothing itself: its operations put requests into an outbox, each with a ticket, and
whoever carries them out hands the results back in any order. Work that has to wait for
the host's next round is kept in a queue (`Deferred`) until `Session.tick`.

Three counters tell late answers from current ones. `navSeq` counts the choices of an
item, `generation` the items that were dropped, and `frameSeq` the frames that were
left. A ticket carries the value that concerned it when the request was made
(`Session.isStale`).

This module holds the state, the issuing of requests, and how the tool is called.
-/

namespace Labeling

/-- How the next item is chosen. -/
inductive NavMode where
  /-- Items without annotations. -/
  | new
  /-- Stored annotations, in the order of their listing. -/
  | existing
  deriving DecidableEq, Repr

/-- Work that waits for the next round. -/
inductive Deferred where
  /-- Show an item, unless another one has taken its place. -/
  | begin (assignment : Assignment) (generation : Nat)
  /-- Show a frame, unless the frame has been left again. -/
  | showFrame (index : Int) (frameSeq : Nat)
  deriving DecidableEq, Repr

/-- What a session takes from the configuration. -/
structure SessionConfig where
  stale : StalePolicy
  bindings : KeyBindings
  deriving DecidableEq, Repr

namespace SessionConfig

/-- The settings without a configuration. -/
def default : SessionConfig := ⟨.discard, .default⟩

/-- The settings of a configuration. -/
def ofConfig (c : Config) : SessionConfig := ⟨c.preferences.stale, c.bindings⟩

end SessionConfig

/-- The state of a session. -/
structure Session where
  annotationSetId : Int
  config : SessionConfig
  annotationSet : Option AnnotationSet
  tool : Option Tool
  mode : NavMode
  /-- The keys of the stored annotations, once they are listed. -/
  keyList : Option (List String)
  itemIndex : Nat
  /-- The item that is shown. -/
  assignment : Option Assignment
  itemMeta : Option ItemMeta
  /-- The frame that is shown; none between leaving a frame and showing the next one. -/
  frame : Option Nat
  frameCount : Nat
  /-- The size of the image of the frame, once it is loaded. -/
  dims : Option Dims
  /-- What is shown instead of an item. -/
  message : Option String
  errors : List String
  outbox : List (Ticket × Request)
  deferred : List Deferred
  nextTicket : Nat
  navSeq : Nat
  generation : Nat
  frameSeq : Nat
  /-- The session's subscription to the keyboard. -/
  keys : Nat

namespace Session

/-- A session for an annotation set that has to be fetched. -/
def new (annotationSetId : Int) (config : SessionConfig) (keys : Nat) : Session :=
  { annotationSetId, config, annotationSet := none, tool := none, mode := .new
    keyList := none, itemIndex := 0, assignment := none, itemMeta := none, frame := none
    frameCount := 0, dims := none, message := none, errors := [], outbox := []
    deferred := [], nextTicket := 0, navSeq := 0, generation := 0, frameSeq := 0, keys }

/-- A session for an annotation set that is known. -/
def ofSet (set : AnnotationSet) (config : SessionConfig) (keys : Nat) : Session :=
  { new set.id config keys with annotationSet := some set }

/-! ## Messages for the user -/

/-- Shown when no item is left to label. -/
def everythingLabeledMessage : String :=
  "Everything has been labeled already. Switch to View Existing Labels to go through previously annotated items."

/-- Shown when there are no stored annotations to go through. -/
def noLabelsMessage : String :=
  "There are no labels in this dataset yet. Switch to Annotate New Items to add new labels based on the source image dataset."

/-- Add a text to the errors. -/
def reportMessage (s : Session) (message : String) : Session :=
  { s with errors := s.errors ++ [message] }

/-- Add a failure to the errors. -/
def report (s : Session) (f : Failure) : Session := s.reportMessage f.userMessage

/-! ## Requests -/

/-- Put a request into the outbox. Its ticket carries the number of the choice for the
requests that choose an item, and the number of the item for all others. -/
def issue (s : Session) (purpose : Purpose) (request : Request) : Session :=
  let generation := if purpose.isNavigation then s.navSeq else s.generation
  { s with
    outbox := s.outbox ++ [(⟨s.nextTicket, purpose, generation⟩, request)]
    nextTicket := s.nextTicket + 1 }

/-- Take the requests out of the outbox, oldest first. -/
def takeRequests (s : Session) : List (Ticket × Request) × Session :=
  (s.outbox, { s with outbox := [] })

/-- The answer comes too late. The image of a frame that was left is always too late;
the policy decides on an item that was dropped and on a choice that was superseded. -/
def isStale (s : Session) (t : Ticket) : Bool :=
  match t.purpose with
  | .frameImage frameSeq => frameSeq != s.frameSeq
  | purpose =>
    match s.config.stale with
    | .apply => false
    | .discard =>
      if purpose.isNavigation then t.generation != s.navSeq
      else if purpose.isItemScoped then t.generation != s.generation
      else false

/-! ## Leaving frames and items -/

/-- Leave the frame. Input is ignored until the next one is shown. -/
def resetFrame (s : Session) : Session :=
  { s with
    frameSeq := s.frameSeq + 1, frame := none, dims := none
    tool := s.tool.map Tool.resetFrame }

/-- Leave the item. -/
def resetItem (s : Session) : Session :=
  { s with
    generation := s.generation + 1, assignment := none, itemMeta := none
    frameCount := 0 }.resetFrame

/-! ## Frames -/

/-- A count as a signed 64-bit integer. -/
def signed (n : Nat) : Int := wrapInt64 n

/-- Ask for a frame, which is shown in the next round. -/
def getFrame (s : Session) (index : Int) : Session :=
  if s.assignment.isNone || s.frameCount = 0 then s
  else
    let s := s.resetFrame
    { s with deferred := s.deferred ++ [.showFrame index s.frameSeq] }

/-- Ask for the frame at a fraction of the item's length. -/
def jumpToRelative (s : Session) (fraction : Float) : Session :=
  if s.frameCount = 0 then s
  else
    s.getFrame (Scalar.toInt (floorFloat (Float.ofNat s.frameCount * Scalar.clampUnit fraction)))

/-- What the tool sees. -/
def view (s : Session) (set : AnnotationSet) : View :=
  { annotationSet := set, assignment := s.assignment, itemMeta := s.itemMeta, frame := s.frame
    frameCount := s.frameCount, dims := s.dims }

/-- Hand in the annotations of the item. -/
def annotateItem (s : Session) : Session :=
  match s.annotationSet, s.assignment, s.tool with
  | some set, some assignment, some tool =>
    let (data, metadata) := tool.annotations (s.view set)
    s.issue .submit (.submit set.annotatePath (.json assignment.key data metadata))
  | _, _, _ => s

/-- Go on to the next frame, or after the last one hand in the annotations. -/
def finishFrame (s : Session) : Session :=
  match s.frame with
  | none => s
  | some frame =>
    if s.frameCount ≤ frame + 1 then s.annotateItem else s.getFrame (signed frame + 1)

/-! ## The tool -/

/-- Carry out what the tool asks for. -/
def carryOut (s : Session) : Command → Session
  | .fetch purpose request => s.issue (.tool purpose) request
  | .goToFrame frame => s.getFrame (signed frame)
  | .finishFrame => s.finishFrame
  | .annotateItem => s.annotateItem
  | .reportError message => s.reportMessage message

/-- Call the tool, and carry out its commands afterwards. Nothing is called while there
is no annotation set or no tool. -/
def withTool (s : Session) (call : Tool → View → Outcome Tool) : Option Reply × Session :=
  match s.annotationSet, s.tool with
  | some set, some tool =>
    let outcome := call tool (s.view set)
    (some outcome.reply, outcome.commands.foldl carryOut { s with tool := some outcome.tool })
  | _, _ => (none, s)

/-- Tell the tool of an event. -/
def notify (s : Session) (e : ToolEvent) : Session := (s.withTool fun t v => t.handle v e).2

/-- Ask the tool whether it does something with an event. -/
def ask (s : Session) (e : ToolEvent) : Bool × Session :=
  match s.withTool fun t v => t.handle v e with
  | (some (.flag done), s) => (done, s)
  | (_, s) => (false, s)

end Session

end Labeling
