import Labeling.Session.Items
import Labeling.Keyboard.Hub

/-!
# What the user does with a session

The operations that the host calls on behalf of the user, and the same as data
(`SessionOp`), so that the history of a session is a list. A session together with the
keyboard it listens to is a `Desk`.
-/

namespace Labeling

namespace Session

/-- Store the parameters of the tool, in the annotation set and at the backend. -/
def saveParams (s : Session) : Session :=
  match s.tool.bind Tool.paramsJson? with
  | none => s
  | some json =>
    let params := json.text
    let annotationSet := s.annotationSet.map fun set => { set with params := some params }
    { s with annotationSet }.issue .saveParams (.saveParams s.annotationSetId params)

/-- Pass key events on to the tool, one after the other. -/
def handleKeys (s : Session) (events : List KeyEvent) : Session :=
  events.foldl (fun s e => s.notify (.key e)) s

/-- End the track of the track tool; other tools do nothing. -/
def endTrack (s : Session) : Session :=
  (s.withTool fun t v => (t.perform v .endTrack).getD (.quiet t)).2

/-- Perform an operation of the tool's own controls: no answer if there is no tool, and
an answer of none if the tool does not have the operation. -/
def performTool (s : Session) (op : ToolOp) : Option (Option Reply) × Session :=
  match s.annotationSet, s.tool with
  | some set, some tool =>
    match tool.perform (s.view set) op with
    | some outcome =>
      let (reply, s) := s.withTool fun _ _ => outcome
      (some reply, s)
    | none => (some none, s)
  | _, _ => (none, s)

/-- The scene of the tool, if it draws one. -/
def scene? (s : Session) : Option (Scene Float) := s.tool.bind Tool.scene?

/-- Take the errors. -/
def takeErrors (s : Session) : List String × Session := (s.errors, { s with errors := [] })

end Session

/-! ## Operations as data -/

/-- A session and the keyboard it listens to. -/
structure Desk where
  hub : KeyHub
  session : Session

/-- An operation of the host. -/
inductive SessionOp where
  | start
  | tick
  | update
  | getNewItem
  | getOldItem (index : Int)
  | getFrame (index : Int)
  | jumpToRelative (fraction : Float)
  | finishFrame
  | annotateItem
  | saveParams
  | imageLoaded (dims : Dims)
  | resize (width height : Float)
  /-- A key event reaches the keyboard. -/
  | dispatch (e : KeyEvent)
  /-- The session takes the key events that reached it. -/
  | pumpKeys
  | click (pos : Point Float)
  | pointerMove (pos : Point Float)
  | dragStart (pos : Point Float)
  | dragMove (pos : Point Float)
  | dragEnd
  | endTrack
  | tool (op : ToolOp)
  | takeRequests
  | takeErrors
  | complete (ticket : Ticket) (result : Response)

namespace Desk

/-- A keyboard to which a session listens. -/
def «open» (make : Nat → Session) : Desk :=
  let (keys, hub) := KeyHub.empty.subscribe
  ⟨hub, make keys⟩

/-- Change the session. -/
def onSession (d : Desk) (f : Session → Session) : Desk := { d with session := f d.session }

/-- The session takes the key events that reached it, and passes them on to its tool. -/
def pumpKeys (d : Desk) : Desk :=
  let (events, hub) := d.hub.drain d.session.keys
  ⟨hub, d.session.handleKeys events⟩

/-- Perform an operation. -/
def perform (d : Desk) : SessionOp → Desk
  | .start => d.onSession Session.start
  | .tick => d.onSession Session.tick
  | .update => d.onSession Session.update
  | .getNewItem => d.onSession Session.getNewItem
  | .getOldItem index => d.onSession (·.getOldItem index)
  | .getFrame index => d.onSession (·.getFrame index)
  | .jumpToRelative fraction => d.onSession (·.jumpToRelative fraction)
  | .finishFrame => d.onSession Session.finishFrame
  | .annotateItem => d.onSession Session.annotateItem
  | .saveParams => d.onSession Session.saveParams
  | .imageLoaded dims => d.onSession (·.imageLoaded dims)
  | .resize width height => d.onSession (·.notify (.resize width height))
  | .dispatch e => { d with hub := d.hub.dispatch e }
  | .pumpKeys => d.pumpKeys
  | .click pos => d.onSession (·.notify (.click pos))
  | .pointerMove pos => d.onSession (·.notify (.pointerMove pos))
  | .dragStart pos => d.onSession fun s => (s.ask (.dragStart pos)).2
  | .dragMove pos => d.onSession (·.notify (.dragMove pos))
  | .dragEnd => d.onSession (·.notify .dragEnd)
  | .endTrack => d.onSession Session.endTrack
  | .tool op => d.onSession fun s => (s.performTool op).2
  | .takeRequests => d.onSession fun s => s.takeRequests.2
  | .takeErrors => d.onSession fun s => s.takeErrors.2
  | .complete ticket result => d.onSession (·.complete ticket result)

end Desk

end Labeling
