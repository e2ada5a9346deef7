import Labeling.Proofs.Session.Step

/-!
# What depends on the policy

Two sessions that differ only in the policy for late answers (`Session.withPolicy`) do the same in
every operation but two. The policy is asked for whether an answer comes too late, and whether an
item that waits is shown although another one has taken its place. Where the numbers are the
current ones neither makes a difference (`Session.complete_withPolicy`,
`Session.tick_withPolicy`); everything else never looks at the policy
(`Desk.perform_withPolicy`).
-/

namespace Labeling

namespace Session

/-- The same session with another policy for late answers. -/
def withPolicy (p : StalePolicy) (s : Session) : Session :=
  { s with config := { s.config with stale := p } }

variable (p : StalePolicy) (s : Session)

@[simp] theorem annotationSet_withPolicy : (s.withPolicy p).annotationSet = s.annotationSet := rfl

@[simp] theorem bindings_withPolicy :
    (s.withPolicy p).config.bindings = s.config.bindings := rfl

@[simp] theorem tool_withPolicy : (s.withPolicy p).tool = s.tool := rfl

@[simp] theorem mode_withPolicy : (s.withPolicy p).mode = s.mode := rfl

@[simp] theorem keyList_withPolicy : (s.withPolicy p).keyList = s.keyList := rfl

@[simp] theorem itemIndex_withPolicy : (s.withPolicy p).itemIndex = s.itemIndex := rfl

@[simp] theorem assignment_withPolicy : (s.withPolicy p).assignment = s.assignment := rfl

@[simp] theorem frame_withPolicy : (s.withPolicy p).frame = s.frame := rfl

@[simp] theorem view_withPolicy (set : AnnotationSet) :
    (s.withPolicy p).view set = s.view set := rfl

/-! ## Requests and frames -/

theorem getFrame_withPolicy (index : Int) :
    (s.withPolicy p).getFrame index = (s.getFrame index).withPolicy p := by
  unfold getFrame
  rw [apply_ite (withPolicy p)]
  rfl

theorem jumpToRelative_withPolicy (fraction : Float) :
    (s.withPolicy p).jumpToRelative fraction = (s.jumpToRelative fraction).withPolicy p := by
  unfold jumpToRelative
  rw [apply_ite (withPolicy p), ← getFrame_withPolicy]
  rfl

theorem annotateItem_withPolicy :
    (s.withPolicy p).annotateItem = s.annotateItem.withPolicy p := by
  unfold annotateItem
  simp only [annotationSet_withPolicy, assignment_withPolicy, tool_withPolicy]
  split <;> rfl

theorem finishFrame_withPolicy : (s.withPolicy p).finishFrame = s.finishFrame.withPolicy p := by
  unfold finishFrame
  simp only [frame_withPolicy]
  split
  · rfl
  · rw [apply_ite (withPolicy p), ← getFrame_withPolicy, ← annotateItem_withPolicy]
    rfl

/-! ## The tool -/

theorem carryOut_withPolicy (c : Command) :
    (s.withPolicy p).carryOut c = (s.carryOut c).withPolicy p := by
  cases c with
  | fetch purpose r => rfl
  | goToFrame frame => exact s.getFrame_withPolicy p _
  | finishFrame => exact s.finishFrame_withPolicy p
  | annotateItem => exact s.annotateItem_withPolicy p
  | reportError message => rfl

theorem foldl_carryOut_withPolicy (commands : List Command) :
    ∀ s : Session, commands.foldl carryOut (s.withPolicy p) =
      (commands.foldl carryOut s).withPolicy p := by
  induction commands with
  | nil => exact fun _ => rfl
  | cons c rest ih =>
    intro s
    rw [List.foldl_cons, List.foldl_cons, carryOut_withPolicy, ih]

theorem withTool_withPolicy (call : Tool → View → Outcome Tool) :
    (s.withPolicy p).withTool call = ((s.withTool call).1, (s.withTool call).2.withPolicy p) := by
  unfold withTool
  simp only [annotationSet_withPolicy, tool_withPolicy]
  split
  · rename_i set t _ _
    exact congrArg (Prod.mk _) (foldl_carryOut_withPolicy p _
      { s with tool := some (call t (s.view set)).tool })
  · rfl

theorem notify_withPolicy (e : ToolEvent) :
    (s.withPolicy p).notify e = (s.notify e).withPolicy p := by
  unfold notify
  rw [withTool_withPolicy]

theorem ask_withPolicy (e : ToolEvent) :
    ((s.withPolicy p).ask e).2 = (s.ask e).2.withPolicy p := by
  rw [ask_eq, ask_eq, notify_withPolicy]

/-! ## Choosing and showing -/

theorem update_withPolicy : (s.withPolicy p).update = s.update.withPolicy p := by
  unfold update
  simp only [annotationSet_withPolicy, mode_withPolicy, keyList_withPolicy]
  split
  · rfl
  · split
    · rfl
    · split <;> rfl

theorem getNewItem_withPolicy : (s.withPolicy p).getNewItem = s.getNewItem.withPolicy p :=
  update_withPolicy p { s with mode := .new, message := none, keyList := none, itemIndex := 0 }

theorem getOldItem_withPolicy (index : Int) :
    (s.withPolicy p).getOldItem index = (s.getOldItem index).withPolicy p := by
  unfold getOldItem
  simp only [annotationSet_withPolicy, keyList_withPolicy]
  split
  · split <;> rfl
  · rfl
  · rename_i keys _ _
    exact update_withPolicy p { s with
      mode := .existing, message := none, itemIndex := (index % (keys.length : Int)).toNat }

theorem loadFrameImage_withPolicy :
    (s.withPolicy p).loadFrameImage = s.loadFrameImage.withPolicy p := by
  unfold loadFrameImage
  simp only [annotationSet_withPolicy, assignment_withPolicy, frame_withPolicy]
  split
  · split <;> rfl
  · rfl

theorem loadExisting_withPolicy (a : Assignment) :
    (s.withPolicy p).loadExisting a = (s.loadExisting a).withPolicy p := by
  unfold loadExisting
  simp only [annotationSet_withPolicy]
  split
  · rfl
  · split <;> rfl

theorem beginItem_withPolicy (a : Assignment) :
    (s.withPolicy p).beginItem a = (s.beginItem a).withPolicy p := by
  have hshown := notify_withPolicy p { s with assignment := some a, frame := some 0 } .itemShown
  unfold beginItem
  dsimp only
  rw [← loadExisting_withPolicy, ← loadFrameImage_withPolicy, ← hshown]
  rfl

theorem install_withPolicy (set : AnnotationSet) :
    (s.withPolicy p).install set = (s.install set).withPolicy p := by
  unfold install
  simp only [bindings_withPolicy]
  split
  · rfl
  · have hready := notify_withPolicy p
      { s with tool := Tool.ofSet? set s.config.bindings, annotationSet := some set } .ready
    split
    · rw [← getNewItem_withPolicy, ← hready]
      rfl
    · rw [← hready]
      rfl

theorem start_withPolicy : (s.withPolicy p).start = s.start.withPolicy p := by
  unfold start
  simp only [annotationSet_withPolicy]
  split
  · exact install_withPolicy p { s with annotationSet := none } _
  · rfl

theorem imageLoaded_withPolicy (dims : Dims) :
    (s.withPolicy p).imageLoaded dims = (s.imageLoaded dims).withPolicy p := by
  unfold imageLoaded
  rw [apply_ite (withPolicy p), ← notify_withPolicy]
  rfl

/-! ## Answers -/

theorem onAssignment_withPolicy (result : Response) :
    (s.withPolicy p).onAssignment result = (s.onAssignment result).withPolicy p := by
  unfold onAssignment
  simp only [annotationSet_withPolicy]
  split
  · split <;> rfl
  · split <;> rfl

theorem onItemMeta_withPolicy (a : Assignment) (result : Response) :
    (s.withPolicy p).onItemMeta a result = (s.onItemMeta a result).withPolicy p := by
  unfold onItemMeta
  split <;> rfl

theorem onKeyList_withPolicy (index : Int) (result : Response) :
    (s.withPolicy p).onKeyList index result = (s.onKeyList index result).withPolicy p := by
  unfold onKeyList
  split
  · rfl
  · exact getOldItem_withPolicy p { s with keyList := _ } index

theorem onSubmitted_withPolicy (result : Response) :
    (s.withPolicy p).onSubmitted result = (s.onSubmitted result).withPolicy p := by
  unfold onSubmitted
  simp only [mode_withPolicy, itemIndex_withPolicy]
  split
  · rfl
  · split
    · exact s.getNewItem_withPolicy p
    · exact s.getOldItem_withPolicy p _

/-- Once it is settled that an answer is not too late, the policy does not matter. -/
theorem apply_withPolicy (purpose : Purpose) (result : Response) :
    (s.withPolicy p).apply purpose result = (s.apply purpose result).withPolicy p := by
  unfold apply
  cases purpose with
  | annotationSet =>
    dsimp only
    split
    · exact s.install_withPolicy p _
    · rfl
  | assignment => exact s.onAssignment_withPolicy p result
  | itemMeta a => exact s.onItemMeta_withPolicy p a result
  | existingData =>
    dsimp only
    split
    · exact s.notify_withPolicy p _
    · rfl
  | keyList index => exact s.onKeyList_withPolicy p index result
  | submit => exact s.onSubmitted_withPolicy p result
  | saveParams =>
    dsimp only
    split <;> rfl
  | frameImage n =>
    dsimp only
    split
    · exact s.imageLoaded_withPolicy p _
    · rfl
  | tool purpose => exact s.notify_withPolicy p _

variable {s}

/-- A ticket that carries the numbers that are current now. -/
structure Fresh (s : Session) (t : Ticket) : Prop where
  choice : t.purpose.isNavigation = true → t.generation = s.navSeq
  item : t.purpose.isItemScoped = true → t.generation = s.generation

/-- Of a ticket with current numbers, only an image can come too late. -/
theorem Fresh.isStale_eq {t : Ticket} (h : s.Fresh t) :
    s.isStale t = match t.purpose with
      | .frameImage n => n != s.frameSeq
      | _ => false := by
  obtain ⟨hchoice, hitem⟩ := h
  unfold isStale
  cases hp : t.purpose <;> cases s.config.stale <;>
    simp_all [Purpose.isNavigation, Purpose.isItemScoped]

/-- An answer to a ticket with current numbers does the same under either policy. -/
theorem complete_withPolicy {t : Ticket} (h : s.Fresh t) (result : Response) :
    (s.withPolicy p).complete t result = (s.complete t result).withPolicy p := by
  have h' : (s.withPolicy p).Fresh t := ⟨h.choice, h.item⟩
  have hstale : (s.withPolicy p).isStale t = s.isStale t := by
    rw [h.isStale_eq, h'.isStale_eq]
    rfl
  unfold complete
  rw [hstale]
  split
  · rfl
  · exact s.apply_withPolicy p _ result

/-- No item that waits was superseded. -/
def Timed (s : Session) (tasks : List Deferred) : Prop :=
  ∀ a g, .begin a g ∈ tasks → g = s.generation

theorem runDeferred_withPolicy {task : Deferred}
    (h : ∀ a g, task = .begin a g → g = s.generation) :
    (s.withPolicy p).runDeferred task = (s.runDeferred task).withPolicy p := by
  cases task with
  | begin a g =>
    have hg := h a g rfl
    unfold runDeferred
    dsimp only
    rw [if_neg fun hs => hs.1 hg, if_neg fun hs => hs.1 hg]
    exact s.beginItem_withPolicy p a
  | showFrame index n =>
    unfold runDeferred
    dsimp only
    rw [apply_ite (withPolicy p), ← loadFrameImage_withPolicy]
    rfl

theorem foldl_runDeferred_withPolicy (tasks : List Deferred) :
    ∀ {s : Session}, s.Timed tasks →
      tasks.foldl runDeferred (s.withPolicy p) = (tasks.foldl runDeferred s).withPolicy p := by
  induction tasks with
  | nil => exact fun _ => rfl
  | cons task rest ih =>
    intro s h
    rw [List.foldl_cons, List.foldl_cons, runDeferred_withPolicy p fun a g he =>
      h a g (he ▸ List.mem_cons_self ..)]
    refine ih fun a g hm => ?_
    rw [(s.runDeferred_steady task).generation]
    exact h a g (List.mem_cons_of_mem _ hm)

/-- A round does the same under either policy, if no item that waits was superseded. -/
theorem tick_withPolicy (h : s.Timed s.deferred) :
    (s.withPolicy p).tick = s.tick.withPolicy p :=
  foldl_runDeferred_withPolicy (s := { s with deferred := [] }) p s.deferred h

/-! ## The operations of the user -/

variable (s)

theorem saveParams_withPolicy : (s.withPolicy p).saveParams = s.saveParams.withPolicy p := by
  unfold saveParams
  simp only [tool_withPolicy]
  split <;> rfl

theorem handleKeys_withPolicy (events : List KeyEvent) :
    ∀ s : Session, (s.withPolicy p).handleKeys events = (s.handleKeys events).withPolicy p := by
  unfold handleKeys
  induction events with
  | nil => exact fun _ => rfl
  | cons e rest ih =>
    intro s
    rw [List.foldl_cons, List.foldl_cons, notify_withPolicy, ih]

theorem endTrack_withPolicy : (s.withPolicy p).endTrack = s.endTrack.withPolicy p := by
  unfold endTrack
  rw [withTool_withPolicy]

theorem performTool_withPolicy (op : ToolOp) :
    ((s.withPolicy p).performTool op).2 = (s.performTool op).2.withPolicy p := by
  unfold performTool
  simp only [annotationSet_withPolicy, tool_withPolicy, view_withPolicy]
  split
  · split
    · rw [withTool_withPolicy]
    · rfl
  · rfl

end Session

/-- The same desk with another policy for late answers. -/
def Desk.withPolicy (p : StalePolicy) (d : Desk) : Desk := d.onSession (·.withPolicy p)

/-- Under either policy an operation does the same, unless it is an answer or a round. -/
theorem Desk.perform_withPolicy (p : StalePolicy) (d : Desk) {op : SessionOp}
    (hanswer : ∀ t result, op = .complete t result →
      (d.session.withPolicy p).complete t result = (d.session.complete t result).withPolicy p)
    (hround : op = .tick → (d.session.withPolicy p).tick = d.session.tick.withPolicy p) :
    (d.withPolicy p).perform op = (d.perform op).withPolicy p := by
  cases op with
  | start => exact congrArg (Desk.mk d.hub) (d.session.start_withPolicy p)
  | tick => exact congrArg (Desk.mk d.hub) (hround rfl)
  | update => exact congrArg (Desk.mk d.hub) (d.session.update_withPolicy p)
  | getNewItem => exact congrArg (Desk.mk d.hub) (d.session.getNewItem_withPolicy p)
  | getOldItem index => exact congrArg (Desk.mk d.hub) (d.session.getOldItem_withPolicy p index)
  | getFrame index => exact congrArg (Desk.mk d.hub) (d.session.getFrame_withPolicy p index)
  | jumpToRelative fraction =>
    exact congrArg (Desk.mk d.hub) (d.session.jumpToRelative_withPolicy p fraction)
  | finishFrame => exact congrArg (Desk.mk d.hub) (d.session.finishFrame_withPolicy p)
  | annotateItem => exact congrArg (Desk.mk d.hub) (d.session.annotateItem_withPolicy p)
  | saveParams => exact congrArg (Desk.mk d.hub) (d.session.saveParams_withPolicy p)
  | imageLoaded dims => exact congrArg (Desk.mk d.hub) (d.session.imageLoaded_withPolicy p dims)
  | dispatch e => rfl
  | pumpKeys => exact congrArg (Desk.mk _) (Session.handleKeys_withPolicy p _ d.session)
  | dragStart pos => exact congrArg (Desk.mk d.hub) (d.session.ask_withPolicy p _)
  | endTrack => exact congrArg (Desk.mk d.hub) (d.session.endTrack_withPolicy p)
  | tool op => exact congrArg (Desk.mk d.hub) (d.session.performTool_withPolicy p op)
  | takeRequests => rfl
  | takeErrors => rfl
  | complete t result =>
    exact congrArg (Desk.mk d.hub) (hanswer t result rfl)
  | _ => exact congrArg (Desk.mk d.hub) (d.session.notify_withPolicy p _)

end Labeling
