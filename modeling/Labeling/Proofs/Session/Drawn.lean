import Labeling.Proofs.Session.Timing
import Labeling.Proofs.Tool.Drawn

/-!
# What is on the screen

The scene of a session is drawn by its tool, by hand, at the end of whatever changes it. It is
never behind: in every run the scene is the one that a drawing of the frame would give
(`Desk.scene_run`). What the image and the size of the element are is recorded beside the run
(`Desk.screenAfter`), from what the host reports: an image stays until its frame is left, a size
until the next one. A tool that is new has been told of neither.

Whatever does not reach the tool, apart from a frame that is left, does the scene no harm
(`Session.Drifts`). What does reach it leaves the scene drawn, by the lemmas of the tools. The
items and frames that come on show in a round are not drawn at all; there is no image then
(`Session.Timely`).

A click that puts a detection on a track is the one event that changes the scene without a
drawing. It asks for another frame instead, or the same one again, and an item without frames
never shows one: `Desk.scene_left_behind` is a run in which the detection is left on the screen
as it was.
-/

namespace Labeling

/-! ## The screen -/

namespace Screen

variable {screen : Screen Float}

/-- The screen once the image of the frame is loaded; without a frame it is ignored. -/
def load (screen : Screen Float) (s : Session) (dims : Dims) : Screen Float :=
  if s.frame.isSome then { screen with image := some dims } else screen

/-- The screen after an answer. A tool that is new knows neither an image nor a size. -/
def answered (screen : Screen Float) (s : Session) (p : Purpose) (result : Response) :
    Screen Float :=
  match p with
  | .annotationSet =>
    match result.parse AnnotationSet.read? with
    | .ok _ => .dark
    | .error _ => screen
  | .frameImage _ =>
    match result.imageDims with
    | .ok dims => screen.load s dims
    | .error _ => screen
  | _ => screen

/-- What an operation puts on the screen. -/
def put (screen : Screen Float) (s : Session) : SessionOp → Screen Float
  | .start => if s.annotationSet.isSome then .dark else screen
  | .resize width height => { screen with element := some (width, height) }
  | .imageLoaded dims => screen.load s dims
  | .complete t result => if s.isStale t then screen else screen.answered s t.purpose result
  | _ => screen

/-- The image is gone if the frame was left in between. -/
def after (screen : Screen Float) (s s' : Session) : Screen Float :=
  if s'.frameSeq = s.frameSeq then screen else screen.left

theorem after_of_eq {s s' : Session} (h : s'.frameSeq = s.frameSeq) : screen.after s s' = screen :=
  if_pos h

theorem after_of_lt {s s' : Session} (h : s.frameSeq < s'.frameSeq) :
    screen.after s s' = screen.left :=
  if_neg (Nat.ne_of_gt h)

theorem after_dark (s s' : Session) : Screen.dark.after s s' = .dark := by
  unfold after
  split <;> rfl

theorem after_after {s s' s'' : Session} (h : s.frameSeq ≤ s'.frameSeq)
    (h' : s'.frameSeq ≤ s''.frameSeq) : (screen.after s s').after s' s'' = screen.after s s'' := by
  rcases Nat.eq_or_lt_of_le h with he | hlt
  · rw [after_of_eq he.symm]
    unfold after
    rw [he]
  · rw [after_of_lt hlt, after_of_lt (Nat.lt_of_lt_of_le hlt h')]
    unfold after
    split <;> rfl

end Screen

namespace Session

variable {s s' s'' : Session} {honest : Prop} {screen : Screen Float}

/-! ## What the tool does not hear of -/

/-- The tool hears of nothing, except that its frame may be left. -/
structure Drifts (s s' : Session) : Prop where
  seq : s.frameSeq ≤ s'.frameSeq
  stays : s'.frameSeq = s.frameSeq → s'.tool = s.tool ∧ s'.frame = s.frame ∧ s'.dims = s.dims
  leaves : s.frameSeq < s'.frameSeq → s'.tool = s.tool.map Tool.resetFrame ∧ s'.dims = none

theorem Drifts.of_eq (hseq : s'.frameSeq = s.frameSeq) (ht : s'.tool = s.tool)
    (hf : s'.frame = s.frame) (hd : s'.dims = s.dims) : Drifts s s' :=
  ⟨Nat.le_of_eq hseq.symm, fun _ => ⟨ht, hf, hd⟩, fun hlt => by omega⟩

theorem Drifts.refl (s : Session) : Drifts s s := .of_eq rfl rfl rfl rfl

theorem drifts_resetFrame (hseq : s'.frameSeq = s.frameSeq + 1)
    (ht : s'.tool = s.tool.map Tool.resetFrame) (hd : s'.dims = none) : Drifts s s' :=
  ⟨by omega, fun he => by omega, fun _ => ⟨ht, hd⟩⟩

theorem Drifts.trans (h : Drifts s s') (h' : Drifts s' s'') : Drifts s s'' := by
  have hle := h.seq
  have hle' := h'.seq
  refine ⟨by omega, fun he => ?_, fun hlt => ?_⟩
  · obtain ⟨ht, hf, hd⟩ := h.stays (by omega)
    obtain ⟨ht', hf', hd'⟩ := h'.stays (by omega)
    exact ⟨ht'.trans ht, hf'.trans hf, hd'.trans hd⟩
  · rcases Nat.eq_or_lt_of_le hle with he | hlt₁ <;> rcases Nat.eq_or_lt_of_le hle' with he' | hlt₂
    · omega
    · obtain ⟨ht, -, -⟩ := h.stays he.symm
      obtain ⟨ht', hd'⟩ := h'.leaves hlt₂
      exact ⟨by rw [ht', ht], hd'⟩
    · obtain ⟨ht, hd⟩ := h.leaves hlt₁
      obtain ⟨ht', -, hd'⟩ := h'.stays he'.symm
      exact ⟨ht'.trans ht, hd'.trans hd⟩
    · -- to leave the frame once more makes no difference to the tool
      obtain ⟨ht, hd⟩ := h.leaves hlt₁
      obtain ⟨ht', hd'⟩ := h'.leaves hlt₂
      refine ⟨?_, hd'⟩
      rw [ht', ht, Option.map_map]
      exact congrArg (fun f => s.tool.map f) (funext Tool.resetFrame_resetFrame)

theorem Fetch.drifts (h : Fetch honest s s') : Drifts s s' := by
  cases h <;> exact .of_eq rfl rfl rfl rfl

theorem Fetch.frameSeq_eq (h : Fetch honest s s') : s'.frameSeq = s.frameSeq := by
  cases h <;> rfl

theorem Turn.drifts (h : Turn s s') : Drifts s s' := by
  cases h with
  | leaveItem message => exact drifts_resetFrame rfl rfl rfl
  | _ => exact .of_eq rfl rfl rfl rfl

theorem Turns.drifts (h : Turns s s') : Drifts s s' := by
  induction h with
  | refl => exact .refl s
  | tail _ ht ih => exact ih.trans ht.drifts

theorem getFrame_drifts (s : Session) (index : Int) : Drifts s (s.getFrame index) := by
  unfold getFrame
  split
  · exact .refl s
  · exact drifts_resetFrame rfl rfl rfl

theorem jumpToRelative_drifts (s : Session) (fraction : Float) :
    Drifts s (s.jumpToRelative fraction) := by
  unfold jumpToRelative
  split
  · exact .refl s
  · exact s.getFrame_drifts _

theorem annotateItem_drifts (s : Session) : Drifts s s.annotateItem := by
  unfold annotateItem
  split
  · exact .of_eq rfl rfl rfl rfl
  · exact .refl s

theorem finishFrame_drifts (s : Session) : Drifts s s.finishFrame := by
  unfold finishFrame
  split
  · exact .refl s
  · split
    · exact s.annotateItem_drifts
    · exact s.getFrame_drifts _

theorem saveParams_drifts (s : Session) : Drifts s s.saveParams := by
  unfold saveParams
  split
  · exact .refl s
  · exact .of_eq rfl rfl rfl rfl

theorem report_drifts (s : Session) (f : Failure) : Drifts s (s.report f) :=
  .of_eq rfl rfl rfl rfl

theorem carryOut_drifts (s : Session) (c : Command) : Drifts s (s.carryOut c) := by
  cases c with
  | fetch p r => exact .of_eq rfl rfl rfl rfl
  | goToFrame frame => exact s.getFrame_drifts _
  | finishFrame => exact s.finishFrame_drifts
  | annotateItem => exact s.annotateItem_drifts
  | reportError message => exact .of_eq rfl rfl rfl rfl

theorem foldl_carryOut_drifts (commands : List Command) :
    ∀ s : Session, Drifts s (commands.foldl carryOut s) := by
  induction commands with
  | nil => exact .refl
  | cons c rest ih => exact fun s => (s.carryOut_drifts c).trans (ih _)

/-- An answer about the choice of an item does not reach the tool. -/
theorem Effect.drifts {p : Purpose} {result : Response} (h : Effect s p result s')
    (hp : p.isNavigation = true) : Drifts s s' := by
  cases h with
  | works hp' _ =>
    rw [hp] at hp'
    cases hp'
  | turns ht => exact ht.drifts
  | installed hp' =>
    rw [hp'] at hp
    cases hp
  | asked _ _ => exact .of_eq rfl rfl rfl rfl
  | followed _ _ => exact drifts_resetFrame rfl rfl rfl
  | listed _ ht =>
    have hlisted := ht.drifts
    exact ⟨hlisted.seq, hlisted.stays, hlisted.leaves⟩

/-! ## What is on the screen -/

/-- The tool shows the frame that is shown, and there is no image but the one that is loaded. -/
structure OnScreen (s : Session) (screen : Screen Float) : Prop where
  tool : ∀ t, s.tool = some t → t.Shows s.frame screen
  image : s.dims = none → screen.image = none

/-- One operation after another leaves the session with its frame on the screen. -/
def Carries (s s' : Session) : Prop :=
  s.frameSeq ≤ s'.frameSeq ∧
    ∀ screen : Screen Float, s.OnScreen screen → s'.OnScreen (screen.after s s')

theorem Carries.trans (h : Carries s s') (h' : Carries s' s'') : Carries s s'' := by
  refine ⟨Nat.le_trans h.1 h'.1, fun screen hs => ?_⟩
  rw [← Screen.after_after h.1 h'.1]
  exact h'.2 _ (h.2 screen hs)

/-- What the tool does not hear of does it no harm. -/
theorem Drifts.carries (h : Drifts s s') : Carries s s' := by
  refine ⟨h.seq, fun screen hs => ?_⟩
  rcases Nat.eq_or_lt_of_le h.seq with he | hlt
  · obtain ⟨ht, hf, hd⟩ := h.stays he.symm
    rw [Screen.after_of_eq he.symm]
    refine ⟨fun t htool => ?_, fun hnone => hs.image (hd ▸ hnone)⟩
    rw [hf]
    exact hs.tool t (ht ▸ htool)
  · obtain ⟨ht, -⟩ := h.leaves hlt
    rw [Screen.after_of_lt hlt]
    refine ⟨fun t htool => ?_, fun _ => rfl⟩
    rw [ht] at htool
    obtain ⟨t₀, ht₀, rfl⟩ := Option.map_eq_some_iff.1 htool
    exact (hs.tool t₀ ht₀).fits.resetFrame s'.frame

/-! ## Calls of the tool -/

theorem frameSeq_le_withTool (s : Session) (call : Tool → View → Outcome Tool) :
    s.frameSeq ≤ (s.withTool call).2.frameSeq := by
  unfold withTool
  split
  · rename_i set t _ _
    exact (foldl_carryOut_drifts (call t (s.view set)).commands
      { s with tool := some (call t (s.view set)).tool }).seq
  · exact Nat.le_refl _

/-- A call after which the tool shows the frame leaves it on the screen. -/
theorem withTool_onScreen (hl : s.tool.isSome = true → s.annotationSet.isSome = true)
    {call : Tool → View → Outcome Tool}
    (hcall : ∀ set t, s.annotationSet = some set → s.tool = some t →
      (call t (s.view set)).tool.Shows s.frame screen)
    (himage : s.dims = none → screen.image = none) :
    (s.withTool call).2.OnScreen (screen.after s (s.withTool call).2) := by
  unfold withTool
  split
  · rename_i set t hset ht
    have hcalled : OnScreen { s with tool := some (call t (s.view set)).tool } screen := by
      refine ⟨fun t' ht' => ?_, himage⟩
      cases ht'
      exact hcall set t hset ht
    exact (foldl_carryOut_drifts (call t (s.view set)).commands
      { s with tool := some (call t (s.view set)).tool }).carries.2 screen hcalled
  · rename_i hnone
    rw [Screen.after_of_eq rfl]
    refine ⟨fun t ht => ?_, himage⟩
    obtain ⟨set, hset⟩ := Option.isSome_iff_exists.1 (hl (by rw [ht]; rfl))
    exact absurd ht (hnone set t hset)

/-- After a click that puts a detection on a track the frame is left, if its item has frames. -/
theorem notify_click_onScreen (hT : s.Timely []) {set : AnnotationSet} {t : Tool}
    (hset : s.annotationSet = some set) (ht : s.tool = some t) {e : ToolEvent}
    (hfits : (t.handle (s.view set) e).tool.Fits screen) {next : Nat}
    (hnext : (t.handle (s.view set) e).commands = [.goToFrame next])
    (hframe : s.frame.isSome = true) (hcount : s.frameCount ≠ 0) :
    (s.notify e).OnScreen (screen.after s (s.notify e)) := by
  have hitem : s.assignment.isNone = false := by
    obtain ⟨a, ha⟩ := Option.isSome_iff_exists.1 (hT.item hframe)
    rw [ha]
    rfl
  have hleft : s.notify e = { ({ s with tool := some (t.handle (s.view set) e).tool } :
      Session).resetFrame with
        deferred := s.deferred ++ [.showFrame (signed next) (s.frameSeq + 1)] } := by
    rw [notify_eq hset ht, hnext]
    show ({ s with tool := some (t.handle (s.view set) e).tool } : Session).getFrame _ = _
    unfold getFrame
    simp only [hitem, hcount, decide_false, Bool.or_self, Bool.false_eq_true, if_false]
    rfl
  rw [hleft, Screen.after_of_lt (Nat.lt_succ_self _)]
  refine ⟨fun t' ht' => ?_, fun _ => rfl⟩
  cases ht'
  exact hfits.resetFrame none

theorem OnScreen.hear_image (h : s.OnScreen screen) (e : ToolEvent) :
    s.dims = none → (screen.hear s.dims e).image = none := by
  intro hd
  unfold Screen.hear
  rw [hd]
  cases e <;> exact h.image hd

/-- An event leaves the session with its frame on the screen. A click in the track tool has to be on
an item that has frames. -/
theorem notify_onScreen (hT : s.Timely []) (h : s.OnScreen screen) {e : ToolEvent}
    (hshown : e ≠ .itemShown)
    (hclick : ∀ pos, e = .click pos → s.tool.map Tool.kind = some .detectionToTrack →
      s.frame.isSome = true → s.frameCount ≠ 0) :
    (s.notify e).OnScreen ((screen.hear s.dims e).after s (s.notify e)) := by
  cases ht : s.tool with
  | none =>
    refine withTool_onScreen hT.loaded (fun set t _ ht' => ?_) (h.hear_image e)
    rw [ht] at ht'
    cases ht'
  | some t =>
    obtain ⟨set, hset⟩ := Option.isSome_iff_exists.1 (hT.loaded (by rw [ht]; rfl))
    rcases (h.tool t ht).handle (v := s.view set) (fun he => absurd he hshown) h.image with
      hshows | ⟨hk, ⟨pos, rfl⟩, hframe, hfits, next, hnext⟩
    · refine withTool_onScreen hT.loaded (fun set' t' hset' ht' => ?_) (h.hear_image e)
      cases hset.symm.trans hset'
      cases ht.symm.trans ht'
      exact hshows
    · exact notify_click_onScreen hT hset ht hfits hnext hframe
        (hclick pos rfl (by rw [ht]; exact congrArg some hk) hframe)

theorem handleKeys_carries (events : List KeyEvent) :
    ∀ {s : Session}, s.Timely [] → Carries s (s.handleKeys events) := by
  induction events with
  | nil => exact fun _ => (Drifts.refl _).carries
  | cons e rest ih =>
    intro s hT
    have hkey : Carries s (s.notify (.key e)) :=
      ⟨s.frameSeq_le_withTool _, fun screen h =>
        notify_onScreen hT h nofun nofun⟩
    have hworks : Works (fun _ _ => False) True s (s.notify (.key e)) := s.notify_works trivial
    exact hkey.trans (ih (hT.works hworks))

theorem imageLoaded_onScreen (hT : s.Timely []) (h : s.OnScreen screen) (dims : Dims) :
    (s.imageLoaded dims).OnScreen ((screen.load s dims).after s (s.imageLoaded dims)) := by
  by_cases hframe : s.frame.isSome = true
  · have hload : s.imageLoaded dims = ({ s with dims := some dims } : Session).notify .imageLoaded :=
      if_neg (by simpa [Option.isSome_iff_ne_none] using hframe)
    have himage : Work (fun _ _ => False) True s { s with dims := some dims } := .image dims hframe
    have hT' : Timely { s with dims := some dims } [] := hT.work himage
    have h' : OnScreen { s with dims := some dims } screen := ⟨h.tool, fun hd => by cases hd⟩
    rw [hload, show screen.load s dims = { screen with image := some dims } from if_pos hframe]
    exact notify_onScreen (e := .imageLoaded) hT' h' nofun nofun
  · have hignored : s.imageLoaded dims = s := if_pos (by simpa using hframe)
    rw [hignored, show screen.load s dims = screen from if_neg hframe]
    exact (Drifts.refl s).carries.2 screen h

/-- A call of the controls, which hears of nothing new. -/
theorem withTool_perform_onScreen (hT : s.Timely []) (h : s.OnScreen screen)
    {call : Tool → View → Outcome Tool}
    (hcall : ∀ set t, s.annotationSet = some set → s.tool = some t →
      call t (s.view set) = .quiet t ∨ ∃ op, t.perform (s.view set) op = some (call t (s.view set))) :
    (s.withTool call).2.OnScreen (screen.after s (s.withTool call).2) := by
  refine withTool_onScreen hT.loaded (fun set t hset ht => ?_) h.image
  rcases hcall set t hset ht with hquiet | ⟨op, ho⟩
  · rw [hquiet]
    exact h.tool t ht
  · exact (h.tool t ht).perform (v := s.view set) h.image ho

theorem endTrack_onScreen (hT : s.Timely []) (h : s.OnScreen screen) :
    s.endTrack.OnScreen (screen.after s s.endTrack) := by
  refine withTool_perform_onScreen hT h fun set t _ _ => ?_
  cases ho : t.perform (s.view set) .endTrack with
  | none => exact Or.inl rfl
  | some o => exact Or.inr ⟨.endTrack, ho⟩

theorem performTool_onScreen (hT : s.Timely []) (h : s.OnScreen screen) (op : ToolOp) :
    (s.performTool op).2.OnScreen (screen.after s (s.performTool op).2) := by
  unfold performTool
  split
  · rename_i set t hset ht
    split
    · rename_i o ho
      refine withTool_perform_onScreen hT h fun set' t' hset' ht' => ?_
      cases hset.symm.trans hset'
      cases ht.symm.trans ht'
      exact Or.inr ⟨op, ho⟩
    · exact (Drifts.refl s).carries.2 screen h
  · exact (Drifts.refl s).carries.2 screen h

/-! ## A new tool -/

/-- A new tool is told neither of an image nor of a size, until these are reported to it. -/
theorem install_onScreen (s : Session) (set : AnnotationSet) : (s.install set).OnScreen .dark := by
  have hkeep : ∀ {x y : Session}, Drifts x y → x.OnScreen .dark → y.OnScreen .dark := by
    intro x y hd hx
    have hy := hd.carries.2 _ hx
    rwa [Screen.after_dark] at hy
  unfold install
  cases ht : Tool.ofSet? set s.config.bindings with
  | none => exact ⟨fun t ht => (by cases ht), fun _ => rfl⟩
  | some t =>
    have hready : Session.OnScreen
        (({ s with tool := some t, annotationSet := some set } : Session).notify .ready) .dark := by
      rw [← Screen.after_dark { s with tool := some t, annotationSet := some set }]
      refine withTool_onScreen (fun _ => rfl) (fun set' t' _ ht' => ?_) fun _ => rfl
      cases ht'
      refine ((Tool.shows_ofSet ht s.frame).handle (e := .ready) (fun he => by cases he)
        fun _ => rfl).resolve_right ?_
      rintro ⟨-, ⟨pos, he⟩, -⟩
      cases he
    dsimp only
    split
    · exact hkeep (getNewItem_turns _).drifts hready
    · exact hready

/-! ## Rounds -/

theorem Fetches.onScreen (hf : Fetches honest s s') (h : s.OnScreen screen) :
    s'.frameSeq = s.frameSeq ∧ s'.OnScreen screen := by
  induction hf with
  | refl => exact ⟨rfl, h⟩
  | tail _ hf ih =>
    have hseq := hf.frameSeq_eq
    have hnext := hf.drifts.carries.2 screen ih.2
    rw [Screen.after_of_eq hseq] at hnext
    exact ⟨hseq.trans ih.1, hnext⟩

/-- An item comes on show without an image. -/
theorem enter_onScreen (h : s.OnScreen screen) (hd : s.dims = none) (a : Assignment) :
    (s.enter a).OnScreen screen := by
  have hn := h.image hd
  refine ⟨fun t ht => ?_, fun _ => hn⟩
  obtain ⟨t₀, ht₀, ⟨-, rfl⟩ | ⟨set, -, rfl⟩⟩ := enter_tool_cases ht
  · exact (h.tool t ht₀).of_unattached hn _
  · have hbefore : t₀.Shows (some 0) screen := (h.tool t₀ ht₀).of_unattached hn _
    refine (hbefore.handle (v := ({ s with assignment := some a, frame := some 0 }).view set)
      (e := .itemShown) (fun _ => hn) fun _ => hn).resolve_right ?_
    rintro ⟨-, ⟨pos, he⟩, -⟩
    cases he

theorem runDeferred_onScreen {task : Deferred} {due : List Deferred}
    (hT : s.Timely (task :: due)) (h : s.OnScreen screen) :
    (s.runDeferred task).frameSeq = s.frameSeq ∧ (s.runDeferred task).OnScreen screen := by
  have hwaits := hT.waits task (List.mem_cons_self ..)
  rcases s.runDeferred_cases task with hs | ⟨a, g, rfl, -, hs⟩ | ⟨index, rfl, -, hs⟩ <;> rw [hs]
  · exact ⟨rfl, h⟩
  · exact (s.beginItem_fetches a).onScreen (enter_onScreen h hwaits.1 a)
  · have hn := h.image (hwaits.2 rfl).1
    have hframe : OnScreen { s with frame := some (index % signed s.frameCount).toNat } screen :=
      ⟨fun t ht => (h.tool t ht).of_unattached hn _, h.image⟩
    exact (loadFrameImage_fetches _).onScreen hframe

theorem tick_onScreen (hT : s.Timely []) (h : s.OnScreen screen) :
    s.tick.frameSeq = s.frameSeq ∧ s.tick.OnScreen screen := by
  have hrun : ∀ (due : List Deferred) (x : Session), x.Timely due → x.deferred = [] →
      x.OnScreen screen → (due.foldl runDeferred x).frameSeq = x.frameSeq ∧
        (due.foldl runDeferred x).OnScreen screen := by
    intro due
    induction due with
    | nil => exact fun x _ _ hx => ⟨rfl, hx⟩
    | cons task rest ih =>
      intro x hxT hd hx
      obtain ⟨hseq, hnext⟩ := runDeferred_onScreen hxT hx
      obtain ⟨hseq', hend⟩ := ih _ (hxT.runDeferred hd)
        ((x.runDeferred_steady task).deferred.trans hd) hnext
      exact ⟨hseq'.trans hseq, hend⟩
  exact hrun s.deferred _ hT.round rfl ⟨h.tool, h.image⟩

/-! ## Operations -/

theorem apply_onScreen (hT : s.Timely []) (h : s.OnScreen screen) (p : Purpose)
    (result : Response) :
    (s.apply p result).OnScreen ((screen.answered s p result).after s (s.apply p result)) := by
  have hreport : ∀ f, (s.report f).OnScreen (screen.after s (s.report f)) :=
    fun f => (s.report_drifts f).carries.2 screen h
  cases p with
  | annotationSet =>
    unfold apply Screen.answered
    dsimp only
    cases result.parse AnnotationSet.read? with
    | error f => exact hreport f
    | ok set =>
      dsimp only
      rw [Screen.after_dark]
      exact s.install_onScreen set
  | frameImage n =>
    unfold apply Screen.answered
    dsimp only
    cases result.imageDims with
    | error f => exact hreport f
    | ok dims => exact imageLoaded_onScreen hT h dims
  | existingData =>
    unfold apply
    dsimp only
    split
    · exact notify_onScreen hT h nofun nofun
    · exact hreport _
  | tool p => exact notify_onScreen hT h nofun nofun
  | saveParams =>
    unfold apply
    dsimp only
    split
    · exact (Drifts.refl s).carries.2 screen h
    · exact hreport _
  | submit => exact (s.onSubmitted_turns result).drifts.carries.2 screen h
  | assignment => exact ((s.apply_effect .assignment result).drifts rfl).carries.2 screen h
  | itemMeta a => exact ((s.apply_effect (.itemMeta a) result).drifts rfl).carries.2 screen h
  | keyList index => exact ((s.apply_effect (.keyList index) result).drifts rfl).carries.2 screen h

theorem start_onScreen (h : s.OnScreen screen) :
    s.start.OnScreen ((screen.put s .start).after s s.start) := by
  cases hset : s.annotationSet with
  | none =>
    have hstart : s.start = s.issue .annotationSet (.annotationSet s.annotationSetId) := by
      unfold start
      rw [hset]
    have hput : screen.put s .start = screen := if_neg (by rw [hset]; decide)
    have hissue : Drifts s s.start := by
      rw [hstart]
      exact .of_eq rfl rfl rfl rfl
    rw [hput]
    exact hissue.carries.2 screen h
  | some set =>
    have hstart : s.start = install { s with annotationSet := none } set := by
      unfold start
      rw [hset]
    have hput : screen.put s .start = .dark := if_pos (by rw [hset]; rfl)
    rw [hput, Screen.after_dark, hstart]
    exact install_onScreen _ set

end Session

namespace Desk

variable {d : Desk} {screen : Screen Float}

theorem onScreen_perform (hT : d.session.Timely []) (h : d.session.OnScreen screen)
    {op : SessionOp} (hp : d.session.Leavable op) :
    (d.perform op).session.OnScreen
      ((screen.put d.session op).after d.session (d.perform op).session) := by
  have hdrifts : ∀ {s : Session}, d.session.Drifts s → s.OnScreen (screen.after d.session s) :=
    fun hd => hd.carries.2 screen h
  have htell : ∀ {e : ToolEvent}, e ≠ .itemShown → (∀ pos, e ≠ .click pos) →
      (d.session.notify e).OnScreen
        ((screen.hear d.session.dims e).after d.session (d.session.notify e)) :=
    fun hshown hclick => Session.notify_onScreen hT h hshown fun pos he => absurd he (hclick pos)
  cases op with
  | start => exact Session.start_onScreen h
  | tick =>
    obtain ⟨hseq, htick⟩ := Session.tick_onScreen hT h
    show d.session.tick.OnScreen (screen.after d.session d.session.tick)
    rwa [Screen.after_of_eq hseq]
  | complete t result =>
    show (d.session.complete t result).OnScreen
      (Screen.after (if _ then _ else _) d.session (d.session.complete t result))
    unfold Session.complete
    split
    · exact hdrifts (.refl _)
    · exact Session.apply_onScreen hT h _ result
  | update => exact hdrifts (Session.update_turns _).drifts
  | getNewItem => exact hdrifts (Session.getNewItem_turns _).drifts
  | getOldItem index => exact hdrifts (Session.getOldItem_turns _ index).drifts
  | getFrame index => exact hdrifts (Session.getFrame_drifts _ index)
  | jumpToRelative fraction => exact hdrifts (Session.jumpToRelative_drifts _ fraction)
  | finishFrame => exact hdrifts (Session.finishFrame_drifts _)
  | annotateItem => exact hdrifts (Session.annotateItem_drifts _)
  | saveParams => exact hdrifts (Session.saveParams_drifts _)
  | imageLoaded dims => exact Session.imageLoaded_onScreen hT h dims
  | dispatch e => exact hdrifts (.refl _)
  | pumpKeys => exact (Session.handleKeys_carries _ hT).2 screen h
  | endTrack => exact Session.endTrack_onScreen hT h
  | tool op => exact Session.performTool_onScreen hT h op
  | takeRequests => exact hdrifts (.of_eq rfl rfl rfl rfl)
  | takeErrors => exact hdrifts (.of_eq rfl rfl rfl rfl)
  | click pos =>
    refine Session.notify_onScreen hT h (e := .click pos) (fun he => by cases he) ?_
    intro _ _ hk hframe
    cases hstale : d.session.config.stale with
    | discard => exact hT.counted hstale hframe
    | apply => exact hp hstale hk hframe
  | dragStart pos =>
    show (d.session.ask (.dragStart pos)).2.OnScreen
      (screen.after d.session (d.session.ask (.dragStart pos)).2)
    rw [Session.ask_eq]
    exact htell nofun nofun
  | resize width height => exact htell nofun nofun
  | pointerMove pos => exact htell nofun nofun
  | dragMove pos => exact htell nofun nofun
  | dragEnd => exact htell nofun nofun

/-- What some operations put on the screen, as far as it is not left since. -/
def screenAfter (d : Desk) (screen : Screen Float) : List SessionOp → Screen Float
  | [] => screen
  | op :: rest =>
    (d.perform op).screenAfter
      ((screen.put d.session op).after d.session (d.perform op).session) rest

theorem onScreen_performAll (ops : List SessionOp) :
    ∀ {d : Desk} {screen : Screen Float}, d.session.Timely [] → d.session.OnScreen screen →
      d.KeepsAll Session.Leavable ops →
        (d.performAll ops).session.Timely [] ∧
          (d.performAll ops).session.OnScreen (d.screenAfter screen ops) := by
  induction ops with
  | nil => exact fun hT h _ => ⟨hT, h⟩
  | cons op rest ih =>
    exact fun hT h hops => ih (timely_perform hT hops.1) (onScreen_perform hT h hops.1) hops.2

end Desk

namespace Session

variable {s : Session} {screen : Screen Float}

/-- What is on the screen need not be drawn again. -/
theorem OnScreen.notify_render (h : s.OnScreen screen) : s.notify .render = s := by
  cases ht : s.tool with
  | none => exact notify_of_no_tool ht .render
  | some t =>
    cases hset : s.annotationSet with
    | none =>
      unfold notify withTool
      rw [hset]
    | some set =>
      have hrender : t.handle (s.view set) .render = ⟨t, [], .nothing⟩ :=
        (h.tool t ht).handle_render (v := s.view set)
      rw [notify_eq hset ht, hrender]
      show { s with tool := some t } = s
      rw [← ht]

theorem OnScreen.scene?_eq (h : s.OnScreen screen) :
    s.scene? = s.tool.bind (·.sceneAt? s.frame) := by
  unfold scene?
  cases ht : s.tool with
  | none => rfl
  | some t => exact (h.tool t ht).scene?_eq

theorem OnScreen.fits (h : s.OnScreen screen) {stage : Stage Float}
    (hs : s.tool.bind Tool.stage? = some stage) : stage.Fits screen := by
  obtain ⟨t, ht, hstage⟩ := Option.bind_eq_some_iff.1 hs
  exact (h.tool t ht).fits stage hstage

theorem OnScreen.scene?_unattached (h : s.OnScreen screen)
    (hn : s.dims = none ∨ screen.image = none) {scene : Scene Float}
    (hs : s.scene? = some scene) : scene = .none := by
  obtain ⟨t, ht, hscene⟩ := Option.bind_eq_some_iff.1 hs
  exact (h.tool t ht).scene?_unattached (hn.elim h.image id) hscene

theorem onScreen_of_isFresh (hs : s.IsFresh) : s.OnScreen .dark := by
  rcases hs with ⟨id, config, keys, rfl⟩ | ⟨set, config, keys, rfl⟩ <;>
    exact ⟨fun t ht => (by cases ht), fun _ => rfl⟩

end Session

namespace Desk

/-- In every run the scene is the one that a drawing of the frame would give, so that to draw once
more changes nothing. It is drawn for the image and the size of the element that the tool was last
told of, whichever came first, and without an image it is empty. -/
theorem scene_run {s : Session} (hub : KeyHub) (hs : s.IsFresh) (ops : List SessionOp)
    (hops : (Desk.mk hub s).KeepsAll Session.Leavable ops) :
    let d := (Desk.mk hub s).performAll ops
    let screen := (Desk.mk hub s).screenAfter .dark ops
    d.session.scene? = d.session.tool.bind (·.sceneAt? d.session.frame) ∧
      d.session.notify .render = d.session ∧
      (∀ stage, d.session.tool.bind Tool.stage? = some stage → stage.Fits screen) ∧
      (d.session.dims = none ∨ screen.image = none → ∀ scene, d.session.scene? = some scene →
        scene = .none) := by
  intro d screen
  have h : d.session.OnScreen screen :=
    (onScreen_performAll ops (Session.timely_of_isFresh hs) (Session.onScreen_of_isFresh hs) hops).2
  exact ⟨h.scene?_eq, h.notify_render, fun stage => h.fits,
    fun hn scene => h.scene?_unattached hn⟩

/-- The size of the element is known before the image. A click puts the only detection on a track,
and the frame is shown again, with the detection as one that is on a track. -/
theorem scene_run_click :
    let ops := [.start, .complete ⟨0, .assignment, 1⟩ (.ok (.json (.arr [.str "a", .bool true]))),
      .complete ⟨1, .itemMeta ⟨"a", true, none⟩, 1⟩ (.ok (.json .null)), .tick, .resize 50 50,
      .complete ⟨5, .existingData, 1⟩ (.ok (.json (detectionFramesToJson [[.plain 0 0 9 9]]))),
      .complete ⟨4, .frameImage 1, 1⟩ (.ok (.image ⟨100, 100⟩)), .click ⟨5, 5⟩, .tick,
      .complete ⟨6, .frameImage 2, 1⟩ (.ok (.image ⟨100, 100⟩))]
    let first : Desk :=
      ⟨.empty, .ofSet (History.exampleSet .detectionToTrack .detection) .default 0⟩
    let d := first.performAll ops
    d.session.scene?.bind (·.strokeOf? 0) = some .red ∧
      d.session.notify .render = d.session ∧
      (first.screenAfter .dark ops).image = some ⟨100, 100⟩ ∧
      ∃ stage, d.session.tool.bind Tool.stage? = some stage ∧
        stage.Fits (first.screenAfter .dark ops) := by
  intro ops first d
  have hops : first.KeepsAll Session.Leavable ops := by
    refine ⟨trivial, ?_, ?_, trivial, trivial, ?_, ?_, ?_, trivial, ?_, trivial⟩
    · exact fun _ a known hp => by cases hp
    · intro _ a known _ hk
      cases hk
      decide +kernel
    · exact fun _ a known hp => by cases hp
    · exact fun _ a known hp => by cases hp
    · exact fun hstale => absurd hstale (by decide +kernel)
    · exact fun _ a known hp => by cases hp
  obtain ⟨-, hrender, hfits, -⟩ :=
    scene_run .empty (Or.inr ⟨History.exampleSet .detectionToTrack .detection, .default, 0, rfl⟩)
      ops hops
  obtain ⟨stage, hstage⟩ := Option.isSome_iff_exists.1
    (show (d.session.tool.bind Tool.stage?).isSome = true by decide +kernel)
  exact ⟨by decide +kernel, hrender, by decide +kernel, stage, hstage, hfits stage hstage⟩

/-- An item is chosen, and then no other is left, so that it comes on show without frames. A click
puts the only detection on a track, but no frame is shown after that, and the detection is left on
the screen as one that is on no track. -/
theorem scene_left_behind :
    let set := History.exampleSet .detectionToTrack .detection
    let H := (History.mk ⟨.empty, (Session.ofSet set ⟨.apply, .default⟩ 0).start⟩ [] []).performAll
      [.getNewItem, .complete ⟨0, .assignment, 1⟩ (.ok (.json (.arr [.str "a", .bool true]))),
        .complete ⟨2, .itemMeta ⟨"a", true, none⟩, 2⟩ (.ok (.json .null)),
        .complete ⟨1, .assignment, 2⟩ (.error (.transport 500 Failure.everythingLabeledBody)),
        .tick,
        .complete ⟨6, .existingData, 2⟩ (.ok (.json (detectionFramesToJson [[.plain 0 0 9 9]]))),
        .complete ⟨5, .frameImage 2, 2⟩ (.ok (.image ⟨100, 100⟩)), .click ⟨5, 5⟩]
    H.Reachable ∧ H.session.scene?.bind (·.strokeOf? 0) = some .yellow ∧
      (H.session.tool.bind (·.sceneAt? H.session.frame)).bind (·.strokeOf? 0) = some .red ∧
      (H.session.notify .render).scene?.bind (·.strokeOf? 0) = some .red := by
  intro set H
  refine ⟨History.ReachableUnder.performAll (.start (Or.inr ⟨set, ⟨.apply, .default⟩, 0, rfl⟩))
    (History.allowsAllb_sound ?_), ?_, ?_, ?_⟩
  · decide +kernel
  · decide +kernel
  · decide +kernel
  · decide +kernel

end Desk

end Labeling
