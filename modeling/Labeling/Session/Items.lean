import Labeling.Session.Basic

/-!
# Choosing and showing items

An item is chosen in a chain of requests: the listing of stored annotations if one of
them is wanted and they are not listed yet, then the question which item to label, then
what is known about the item. Once that has arrived the old item is left, and the new
one is shown in the next round.

* `Session.getNewItem` and `Session.getOldItem` begin such a chain;
* `Session.complete` takes the result of a request;
* `Session.tick` does the work that waited.
-/

namespace Labeling

namespace Session

/-! ## Choosing -/

/-- Ask for an item. -/
def askFor (s : Session) (set : AnnotationSet) (key : Option String) : Session :=
  { s with navSeq := s.navSeq + 1 }.issue .assignment (.nextItem set.annotatePath key)

/-- Ask for the next item of the mode: any item without annotations, or the one at the
current place of the listing. -/
def update (s : Session) : Session :=
  match s.annotationSet with
  | none => s
  | some set =>
    match s.mode with
    | .new => s.askFor set none
    | .existing =>
      match s.keyList with
      | none => s
      | some [] => s
      | some keys => s.askFor set keys[s.itemIndex]?

/-- Go to the items without annotations, or on to the next of them. -/
def getNewItem (s : Session) : Session :=
  { s with mode := .new, message := none, keyList := none, itemIndex := 0 }.update

/-- Show the stored annotations at an index, which wraps around the listing. The listing
is fetched first if it is not known. -/
def getOldItem (s : Session) (index : Int) : Session :=
  let s := { s with mode := .existing, message := none }
  match s.keyList with
  | none =>
    match s.annotationSet with
    | none => s
    | some set =>
      { s with navSeq := s.navSeq + 1 }.issue (.keyList index) (.listing set.dataset.id)
  | some [] => { s.resetItem with message := some noLabelsMessage }
  | some keys => { s with itemIndex := (index % (keys.length : Int)).toNat }.update

/-! ## Showing -/

/-- Load the image of the frame that is shown. -/
def loadFrameImage (s : Session) : Session :=
  match s.annotationSet, s.assignment, s.frame with
  | some set, some assignment, some frame =>
    match set.source? with
    | none => s
    | some source =>
      s.issue (.frameImage s.frameSeq) (.frameImage source.id assignment.key
        (if source.dataType = .video then some frame else none))
  | _, _, _ => s

/-- Fetch the stored annotations of an item. -/
def loadExisting (s : Session) (assignment : Assignment) : Session :=
  match s.annotationSet with
  | none => s
  | some set =>
    if assignment.hasExisting then
      s.issue .existingData (.item set.dataset.id assignment.key .json true)
    else s

/-- Show the first frame of an item, and fetch its stored annotations if there are any. -/
def beginItem (s : Session) (assignment : Assignment) : Session :=
  let s := { s with assignment := some assignment, frame := some 0 }
  (s.notify .itemShown).loadFrameImage.loadExisting assignment

/-- The number of frames of an item with some metadata. -/
def framesOf (s : Session) (itemMeta : ItemMeta) : Nat :=
  match s.annotationSet.bind AnnotationSet.sourceType? with
  | some sourceType => Labeling.frameCount sourceType itemMeta
  | none => 1

/-- Set up the tool of an annotation set. A tool that goes through items gets its first
one. -/
def install (s : Session) (set : AnnotationSet) : Session :=
  let tool := Tool.ofSet? set s.config.bindings
  let s := { s with tool, annotationSet := some set }
  match tool with
  | none => s.reportMessage ("Unsupported annotation tool: " ++ set.tool.name)
  | some t =>
    let s := s.notify .ready
    if t.drivesItems then s.getNewItem else s

/-- Begin the session: fetch the annotation set if it is not known, and load the first
item. -/
def start (s : Session) : Session :=
  match s.annotationSet with
  | some set => { s with annotationSet := none }.install set
  | none => s.issue .annotationSet (.annotationSet s.annotationSetId)

/-- The image of the frame is loaded; without a frame it is ignored. -/
def imageLoaded (s : Session) (dims : Dims) : Session :=
  if s.frame.isNone then s else { s with dims := some dims }.notify .imageLoaded

/-! ## Answers -/

/-- The answer to the question which item to label. -/
def onAssignment (s : Session) (result : Response) : Session :=
  match result.parse Assignment.read? with
  | .ok assignment =>
    match s.annotationSet.bind AnnotationSet.source? with
    | none =>
      s.reportMessage
        ("Annotation set " ++ toString s.annotationSetId ++ " has no input dataset")
    | some source => s.issue (.itemMeta assignment) (.item source.id assignment.key .metadata false)
  | .error f =>
    if f.isEverythingLabeled then
      { s.resetItem with message := some everythingLabeledMessage }
    else s.report f

/-- What is known about an item: the old item is left, and this one shown next. -/
def onItemMeta (s : Session) (assignment : Assignment) (result : Response) : Session :=
  match result.parse (Json.nullable ItemMeta.read?) with
  | .error f => s.report f
  | .ok known =>
    let itemMeta := known.getD .empty
    let s := s.resetItem
    let s := { s with frameCount := s.framesOf itemMeta, itemMeta := some itemMeta }
    { s with deferred := s.deferred ++ [.begin assignment s.generation] }

/-- The listing of the stored annotations, for the one at an index. -/
def onKeyList (s : Session) (index : Int) (result : Response) : Session :=
  match result.parse listing? with
  | .error f => s.report f
  | .ok keys => { s with keyList := some (keys.getD []) }.getOldItem index

/-- The annotations were handed in: go on to the next item of the mode. -/
def onSubmitted (s : Session) (result : Response) : Session :=
  match result with
  | .error f => s.report f
  | .ok _ =>
    match s.mode with
    | .new => s.getNewItem
    | .existing => s.getOldItem (signed s.itemIndex + 1)

/-- Apply a result that is not too late. -/
def apply (s : Session) (purpose : Purpose) (result : Response) : Session :=
  match purpose with
  | .annotationSet =>
    match result.parse AnnotationSet.read? with
    | .ok set => s.install set
    | .error f => s.report f
  | .assignment => s.onAssignment result
  | .itemMeta assignment => s.onItemMeta assignment result
  | .existingData =>
    match result.json with
    | .ok data => s.notify (.stored data)
    | .error f => s.report f
  | .keyList index => s.onKeyList index result
  | .submit => s.onSubmitted result
  | .saveParams =>
    match result with
    | .ok _ => s
    | .error f => s.report f
  | .frameImage _ =>
    match result.imageDims with
    | .ok dims => s.imageLoaded dims
    | .error f => s.report f
  | .tool purpose => s.notify (.fetched purpose result)

/-- Hand in the result of a request. A result that comes too late is dropped. -/
def complete (s : Session) (t : Ticket) (result : Response) : Session :=
  if s.isStale t then s else s.apply t.purpose result

/-! ## Rounds -/

/-- Do one piece of work that waited. An item that was superseded is only shown under
the policy that applies late answers. -/
def runDeferred (s : Session) : Deferred → Session
  | .begin assignment generation =>
    if generation ≠ s.generation ∧ s.config.stale = .discard then s else s.beginItem assignment
  | .showFrame index frameSeq =>
    if frameSeq ≠ s.frameSeq ∨ s.frameCount = 0 then s
    else { s with frame := some (index % signed s.frameCount).toNat }.loadFrameImage

/-- Do the work that waited. What is put off while doing so waits for the next round. -/
def tick (s : Session) : Session :=
  s.deferred.foldl runDeferred { s with deferred := [] }

/-- Work waits for the next round. -/
def hasDeferred (s : Session) : Bool := !s.deferred.isEmpty

end Session

end Labeling
