import Labeling.Proofs.Tool.Arrival
import Labeling.Proofs.Tool.Shapes

/-!
# What the drawing tools show

The shape tool and the track tool each keep a scene. What it should be is a function of the tool
and of the frame that is shown (`Tool.sceneAt?`), and a tool that agrees with it, on a stage for
the image and the element on the screen, shows the frame (`Tool.Shows`).

Every event and every operation of the controls keeps that, with one exception: a click that puts
a detection on a track draws nothing and asks for another frame (`Tool.Shows.handle`). If the
frame is left then, no harm is done, as all that is asked of a tool that leaves its frame is a
stage that fits (`Tool.Fits.resetFrame`).
-/

namespace Labeling

/-- The screen after an event: the element may get another size, and the image is attached once it
is loaded. -/
def Screen.hear (screen : Screen Float) (dims : Option Dims) : ToolEvent → Screen Float
  | .resize width height => { screen with element := some (width, height) }
  | .imageLoaded =>
    match dims with
    | some dims => { screen with image := some dims }
    | none => screen
  | _ => screen

/-! ## The shape tool -/

namespace ShapeTool

variable {t t' : ShapeTool} {v : View} {frame : Option Nat} {screen : Screen Float}

/-- The canvas has drawn the shapes of a frame. -/
def Shows (t : ShapeTool) (frame : Option Nat) (screen : Screen Float) : Prop :=
  t.canvas.Shows (t.shownAt frame) screen

/-- Without an image it makes no difference which frame is shown, and what there is on it. -/
theorem Shows.of_unattached (h : t.Shows frame screen) (hn : screen.image = none)
    (hc : t'.canvas = t.canvas) (frame' : Option Nat) : t'.Shows frame' screen := by
  unfold Shows
  rw [hc]
  exact Canvas.Shows.of_unattached h hn _

theorem shows_resetFrame (hf : t.canvas.stage.Fits screen) (frame : Option Nat) :
    t.resetFrame.Shows frame screen.left :=
  Canvas.shows_resetFrame hf _

theorem Shows.editOutcome (h : t.Shows v.frame screen) (op : CanvasOp Float)
    (hop : ¬ op.SetsStage) (otherwise : Reply) :
    (t.editOutcome v op otherwise).tool.Shows v.frame screen := by
  unfold ShapeTool.editOutcome
  split
  · rename_i he
    obtain ⟨hcanvas, hshown, -⟩ := editFrame_eq_some he
    show Canvas.Shows _ _ _
    rw [hcanvas, hshown]
    exact Canvas.Shows.perform h hop
  · exact h

/-- An operation that leaves the shapes as they are only changes the canvas. -/
theorem Shows.editShown (h : t.Shows v.frame screen) (op : CanvasOp Float) (hop : ¬ op.SetsStage)
    (hs : (t.canvas.perform (t.shown v) op).2.2 = t.shown v) :
    (t.editShown v op).2.Shows v.frame screen := by
  have hcanvas := Canvas.Shows.perform h hop
  rw [show (t.canvas.perform (t.shownAt v.frame) op).2.2 = t.shownAt v.frame from hs] at hcanvas
  exact hcanvas

/-- Drawn anew, the canvas shows the frame whatever it showed before. -/
theorem shows_render (hf : t.canvas.stage.Fits screen) (hi : screen.image = none → t.canvas.Idle)
    (v : View) : (t.render v).Shows v.frame screen :=
  Canvas.shows_render hf hi _

theorem Shows.load (h : t.Shows v.frame screen) (hdims : v.dims = none → screen.image = none)
    (data : Json) : (t.load v data).Shows v.frame screen := by
  rcases load_cases t.encoding v.frameCount data with hnone | ⟨frames, hload⟩
  · rw [hnone t v rfl rfl]
    exact h
  · rw [hload t v rfl rfl]
    split
    · refine shows_render ?_ ?_ v
      · exact h.fits
      · exact h.idle
    · rename_i hr
      have hnone : v.dims = none := by simpa [View.isRendered] using hr
      refine h.of_unattached (hdims hnone) ?_ v.frame
      rfl

theorem Shows.imageLoaded (h : t.Shows v.frame screen) :
    (t.imageLoaded v).Shows v.frame (screen.hear v.dims .imageLoaded) := by
  unfold ShapeTool.imageLoaded Screen.hear
  cases v.dims with
  | none => exact shows_render h.fits h.idle v
  | some dims =>
    refine shows_render ?_ ?_ v
    · exact h.fits.attach dims
    · exact fun hn => by cases hn

theorem Shows.resize (h : t.Shows v.frame screen) (width height : Float) :
    ({ t with canvas := t.canvas.resize width height }.render v).Shows v.frame
      (screen.hear v.dims (.resize width height)) := by
  refine shows_render ?_ ?_ v
  · exact h.fits.resize width height
  · exact fun hn => ⟨(h.idle hn).selected, (h.idle hn).hovered⟩

/-- No event leaves the scene behind. An item comes on show while there is no image. -/
theorem Shows.handle (h : t.Shows v.frame screen) {e : ToolEvent}
    (hshown : e = .itemShown → screen.image = none) (hdims : v.dims = none → screen.image = none) :
    (t.handle v e).tool.Shows v.frame (screen.hear v.dims e) := by
  cases e with
  | itemShown =>
    refine h.of_unattached (hshown rfl) ?_ v.frame
    rfl
  | stored data => exact h.load hdims data
  | imageLoaded => exact h.imageLoaded
  | key e => exact h.editOutcome (.key e) id _
  | click p => exact h.editOutcome (.click p) id _
  | dragMove p => exact h.editOutcome (.dragMove p) id _
  | pointerMove p => exact h.editShown (.pointerMove p) id rfl
  | dragStart p => exact h.editShown (.dragStart p) id rfl
  | dragEnd => exact h.editShown .dragEnd id rfl
  | resize width height => exact h.resize width height
  | render => exact shows_render h.fits h.idle v
  | _ => exact h

theorem Shows.perform {op : ToolOp} {o : Outcome ShapeTool} (h : t.Shows v.frame screen)
    (ho : Tool.performShape t v op = some o) : o.tool.Shows v.frame screen := by
  cases op <;> simp only [Tool.performShape, Option.some.injEq, reduceCtorEq] at ho <;> subst ho
  case setMode mode =>
    have hparams : Shows { t with params := { t.params with mode } } v.frame screen := h
    exact hparams.editShown (.setMode mode) id rfl
  case setCategories text =>
    have hparams : Shows { t with
        params := { t.params with categories := commaItems text }
        canvas := t.canvas.setCategories (commaItems text) } v.frame screen :=
      Canvas.Shows.setCategories h (commaItems text)
    exact hparams.editShown (.setMode t.params.mode) id rfl
  case setCategory category => exact h.editShown (.setCategory category) id rfl
  case setSelectedCategory category => exact h.editOutcome (.setSelectedCategory category) id _
  case setSelectedTrack text => exact h.editOutcome (.setSelectedTrack text) id _
  case deleteSelection => exact h.editOutcome .deleteSelection id _
  case cancelDraw => exact h.editShown .cancelDraw id rfl

theorem Shows.render_eq (h : t.Shows v.frame screen) : t.render v = t := by
  have hcanvas : t.canvas.render (t.shown v) = t.canvas := Canvas.Drawn.render_eq h.drawn
  show { t with canvas := t.canvas.render (t.shown v) } = t
  rw [hcanvas]

end ShapeTool

/-! ## The track tool -/

namespace TrackTool

variable {t t' : TrackTool} {v : View} {frame : Option Nat} {screen : Screen Float}

/-- The scene of a frame. -/
def sceneAt (t : TrackTool) : Option Nat → Scene Float
  | some k => t.engine.scene k t.stage
  | none => .none

theorem render_eq (t : TrackTool) (v : View) :
    t.render v = { t with scene := t.sceneAt v.frame } := by
  unfold render sceneAt
  cases v.frame <;> rfl

/-- The scene is the one of a frame. -/
structure Shows (t : TrackTool) (frame : Option Nat) (screen : Screen Float) : Prop where
  drawn : t.scene = t.sceneAt frame
  fits : t.stage.Fits screen

/-- Without an image nothing is drawn. -/
theorem sceneAt_unattached (h : t.stage.natural = none) (frame : Option Nat) :
    t.sceneAt frame = .none := by
  cases frame with
  | none => rfl
  | some k =>
    unfold sceneAt TrackEngine.scene Stage.blankScene?
    dsimp only
    rw [h]
    rfl

theorem Shows.of_unattached (h : t.Shows frame screen) (hn : screen.image = none)
    (hstage : t'.stage = t.stage) (hscene : t'.scene = t.scene) (frame' : Option Nat) :
    t'.Shows frame' screen where
  drawn := by
    have hnatural : t.stage.natural = none := h.fits.natural.trans hn
    rw [hscene, h.drawn, sceneAt_unattached hnatural,
      sceneAt_unattached (hstage ▸ hnatural : t'.stage.natural = none)]
  fits := hstage ▸ h.fits

theorem shows_resetFrame (hf : t.stage.Fits screen) (frame : Option Nat) :
    t.resetFrame.Shows frame screen.left :=
  ⟨(sceneAt_unattached rfl frame).symm, hf.detach⟩

theorem shows_render (hf : t.stage.Fits screen) (v : View) :
    (t.render v).Shows v.frame screen := by
  rw [render_eq]
  refine ⟨?_, hf⟩
  unfold sceneAt
  rfl

theorem Shows.load (h : t.Shows v.frame screen) (data : Json) :
    (t.load v data).Shows v.frame screen := by
  unfold TrackTool.load
  split
  · exact h
  · split
    · refine shows_render ?_ v
      exact h.fits
    · exact h

theorem applyFresh_stage (t : TrackTool) (purpose : ToolPurpose) (value : Json) :
    (t.applyFresh purpose value).stage = t.stage := by
  unfold applyFresh
  split
  · split <;> rfl
  · rfl
  · rfl

theorem Shows.fetched (h : t.Shows v.frame screen) (purpose : ToolPurpose) (result : Response) :
    (t.fetched v purpose result).tool.Shows v.frame screen := by
  unfold TrackTool.fetched
  split
  · rename_i value _
    refine shows_render ?_ v
    rw [applyFresh_stage]
    exact h.fits
  · exact h

theorem Shows.imageLoaded (h : t.Shows v.frame screen) :
    (t.imageLoaded v).Shows v.frame (screen.hear v.dims .imageLoaded) := by
  unfold TrackTool.imageLoaded Screen.hear
  cases v.dims with
  | none => exact shows_render h.fits v
  | some dims =>
    refine shows_render ?_ v
    exact h.fits.attach dims

/-- The end of a track changes no detection. -/
theorem Shows.endTrack (h : t.Shows v.frame screen) :
    (t.endTrack v).tool.Shows v.frame screen := by
  refine ⟨?_, h.fits⟩
  show t.scene = sceneAt { t with engine := t.engine.endTrack.2 } v.frame
  rw [h.drawn]
  cases v.frame <;> rfl

theorem Shows.handleKey (h : t.Shows v.frame screen) (e : KeyEvent) :
    (t.handleKey v e).tool.Shows v.frame screen := by
  unfold TrackTool.handleKey
  split
  · exact h
  · exact h.endTrack

/-- A click that puts a detection on the track asks for another frame, and leaves the scene
behind. -/
theorem Shows.click (h : t.Shows v.frame screen) (pos : Point Float) :
    (t.click v pos).tool.Shows v.frame screen ∨
      v.frame.isSome = true ∧ (t.click v pos).tool.stage = t.stage ∧
        ∃ next, (t.click v pos).commands = [.goToFrame next] := by
  unfold TrackTool.click
  split
  · exact Or.inl h
  · rename_i k hk
    split
    · split
      · refine Or.inl (shows_render ?_ v)
        exact h.fits
      · exact Or.inr ⟨by rw [hk]; rfl, rfl, _, rfl⟩
    · exact Or.inl h

/-- No other event leaves the scene behind. -/
theorem Shows.handle (h : t.Shows v.frame screen) {e : ToolEvent}
    (hshown : e = .itemShown → screen.image = none) (hclick : ∀ pos, e ≠ .click pos) :
    (t.handle v e).tool.Shows v.frame (screen.hear v.dims e) := by
  cases e with
  | itemShown =>
    have hitem : (t.itemShown v).tool.stage = t.stage ∧ (t.itemShown v).tool.scene = t.scene := by
      unfold itemShown
      split <;> exact ⟨rfl, rfl⟩
    exact h.of_unattached (hshown rfl) hitem.1 hitem.2 v.frame
  | stored data => exact h.load data
  | imageLoaded => exact h.imageLoaded
  | fetched purpose result => exact h.fetched purpose result
  | key e => exact h.handleKey e
  | click pos => exact absurd rfl (hclick pos)
  | resize width height =>
    refine shows_render ?_ v
    exact h.fits.resize width height
  | render => exact shows_render h.fits v
  | _ => exact h

theorem Shows.render_eq_self (h : t.Shows v.frame screen) : t.render v = t := by
  rw [render_eq, ← h.drawn]

end TrackTool

/-! ## Tools in general -/

namespace Tool

variable {t : Tool} {v : View} {frame : Option Nat} {screen : Screen Float}

/-- The stage of the tool, if it draws. -/
def stage? : Tool → Option (Stage Float)
  | .shape t => some t.canvas.stage
  | .track t => some t.stage
  | _ => none

/-- The scene that a drawing of a frame would give, if the tool draws. -/
def sceneAt? : Tool → Option Nat → Option (Scene Float)
  | .shape t, frame => some (t.canvas.sceneOf (t.shownAt frame))
  | .track t, frame => some (t.sceneAt frame)
  | _, _ => none

/-- The tool shows a frame as it is, if it draws. -/
def Shows : Tool → Option Nat → Screen Float → Prop
  | .shape t, frame, screen => t.Shows frame screen
  | .track t, frame, screen => t.Shows frame screen
  | _, _, _ => True

/-- The stage of the tool, if it draws, is the one for the screen. -/
def Fits (t : Tool) (screen : Screen Float) : Prop := ∀ stage, t.stage? = some stage → stage.Fits screen

theorem Shows.fits (h : t.Shows frame screen) : t.Fits screen := by
  intro stage hs
  cases t with
  | shape t =>
    cases hs
    exact Canvas.Shows.fits h
  | track t =>
    cases hs
    exact TrackTool.Shows.fits h
  | _ => cases hs

theorem Shows.scene?_eq (h : t.Shows frame screen) : t.scene? = t.sceneAt? frame := by
  cases t with
  | shape t => exact congrArg some (Canvas.Shows.drawn h).scene
  | track t => exact congrArg some (TrackTool.Shows.drawn h)
  | _ => rfl

/-- Without an image nothing is drawn. -/
theorem Shows.scene?_unattached (h : t.Shows frame screen) (hn : screen.image = none)
    {scene : Scene Float} (hs : t.scene? = some scene) : scene = .none := by
  rw [h.scene?_eq] at hs
  cases t with
  | shape t =>
    cases hs
    exact Canvas.sceneOf_unattached ((Canvas.Shows.fits h).natural.trans hn) _
  | track t =>
    cases hs
    exact TrackTool.sceneAt_unattached ((TrackTool.Shows.fits h).natural.trans hn) frame
  | _ => cases hs

theorem Shows.of_unattached (h : t.Shows frame screen) (hn : screen.image = none)
    (frame' : Option Nat) : t.Shows frame' screen := by
  cases t with
  | shape t => exact ShapeTool.Shows.of_unattached h hn rfl frame'
  | track t => exact TrackTool.Shows.of_unattached h hn rfl rfl frame'
  | _ => trivial

/-- A tool that leaves its frame shows nothing, whatever it showed before. -/
theorem Fits.resetFrame (h : t.Fits screen) (frame : Option Nat) :
    t.resetFrame.Shows frame screen.left := by
  cases t with
  | shape t => exact ShapeTool.shows_resetFrame (h _ rfl) frame
  | track t => exact TrackTool.shows_resetFrame (h _ rfl) frame
  | _ => trivial

/-- A new tool shows nothing. -/
theorem shows_ofSet {set : AnnotationSet} {bindings : KeyBindings}
    (h : ofSet? set bindings = some t) (frame : Option Nat) : t.Shows frame .dark := by
  unfold ofSet? at h
  split at h <;> cases h
  · exact ⟨⟨rfl, rfl, (Canvas.sceneOf_unattached rfl _).symm⟩, Stage.fits_empty, fun _ => ⟨rfl, rfl⟩⟩
  · trivial
  · exact ⟨(TrackTool.sceneAt_unattached rfl frame).symm, Stage.fits_empty⟩
  · trivial

/-- Every event leaves the tool with the scene of the frame, or is a click in the track tool after
which the frame is to be left. -/
theorem Shows.handle (h : t.Shows v.frame screen) {e : ToolEvent}
    (hshown : e = .itemShown → screen.image = none) (hdims : v.dims = none → screen.image = none) :
    (t.handle v e).tool.Shows v.frame (screen.hear v.dims e) ∨
      t.kind = .detectionToTrack ∧ (∃ pos, e = .click pos) ∧ v.frame.isSome = true ∧
        (t.handle v e).tool.Fits screen ∧ ∃ next, (t.handle v e).commands = [.goToFrame next] := by
  cases t with
  | shape t => exact Or.inl (ShapeTool.Shows.handle h hshown hdims)
  | track t =>
    by_cases hclick : ∃ pos, e = .click pos
    · obtain ⟨pos, rfl⟩ := hclick
      refine (TrackTool.Shows.click h pos).imp_right ?_
      rintro ⟨hframe, hstage, hnext⟩
      refine ⟨rfl, ⟨pos, rfl⟩, hframe, fun stage hs => ?_, hnext⟩
      obtain rfl := Option.some.inj hs
      show Stage.Fits (t.click v pos).tool.stage screen
      rw [hstage]
      exact TrackTool.Shows.fits h
    · exact Or.inl (TrackTool.Shows.handle h hshown fun pos he => hclick ⟨pos, he⟩)
  | _ => exact Or.inl trivial

/-- So does every operation of the controls. -/
theorem Shows.perform {op : ToolOp} {o : Outcome Tool} (h : t.Shows v.frame screen)
    (hdims : v.dims = none → screen.image = none) (ho : t.perform v op = some o) :
    o.tool.Shows v.frame screen := by
  rcases perform_eq_some ho with ⟨c, -, rfl⟩ | rfl | ⟨s, p, rfl, hp, rfl⟩ | ⟨s, p, rfl, -, rfl⟩ |
    ⟨s, p, rfl, hp, rfl⟩ | ⟨s, p, rfl, -, rfl⟩
  · exact h
  · refine (h.handle (fun he => by cases he) hdims).resolve_right ?_
    rintro ⟨-, ⟨pos, he⟩, -⟩
    cases he
  · exact ShapeTool.Shows.perform h hp
  · trivial
  · cases op <;> simp only [performTrack, Option.some.injEq, reduceCtorEq] at hp
    subst hp
    exact TrackTool.Shows.endTrack h
  · trivial

/-- To draw once more changes nothing. -/
theorem Shows.handle_render (h : t.Shows v.frame screen) :
    t.handle v .render = ⟨t, [], .nothing⟩ := by
  cases t with
  | shape t =>
    show Outcome.quiet (Tool.shape (t.render v)) = _
    rw [ShapeTool.Shows.render_eq h]
    rfl
  | track t =>
    show Outcome.quiet (Tool.track (t.render v)) = _
    rw [TrackTool.Shows.render_eq_self h]
    rfl
  | _ => rfl

theorem resetFrame_resetFrame (t : Tool) : t.resetFrame.resetFrame = t.resetFrame := by
  cases t <;> rfl

end Tool

end Labeling
