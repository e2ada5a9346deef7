import Labeling.Canvas.Edit

/-!
# What the canvas has drawn

The scene of a canvas is a function of its stage, of what is selected, drawn and dragged on it,
and of the shapes of the frame (`Canvas.sceneOf`). It is drawn anew by hand, at the end of the
operations. `Canvas.Drawn` says that nothing would change if it were drawn once more. Every
operation keeps that (`Canvas.Shows.perform`), apart from those that set the stage, after which
the caller draws.

The stage in turn is a function of the image and of the size of the element that shows it, in
whichever order they became known (`Stage.Fits`).
-/

namespace Labeling

/-- The image that is shown, and the size of the element that shows it. -/
structure Screen (α : Type) where
  image : Option Dims
  element : Option (α × α)

namespace Screen

variable {α : Type}

/-- Neither an image nor a size. -/
def dark : Screen α := ⟨none, none⟩

/-- The image is gone; the element keeps its size. -/
def left (screen : Screen α) : Screen α := { screen with image := none }

end Screen

/-! ## The stage -/

namespace Stage

variable {α : Type} [Scalar α] {s : Stage α} {screen : Screen α}

/-- The scale for an image in an element, if its size is known. -/
def fitted (natural : Dims) : Option (α × α) → Display α
  | some (width, height) => .fit natural width height
  | none => .identity

/-- The stage is the one for an image in an element. -/
structure Fits (s : Stage α) (screen : Screen α) : Prop where
  natural : s.natural = screen.image
  displayed : s.displayed = screen.element
  display : ∀ dims, screen.image = some dims → s.display = fitted dims screen.element

theorem fits_empty : (empty : Stage α).Fits .dark := ⟨rfl, rfl, fun dims h => by cases h⟩

theorem refit_display {dims : Dims} (h : s.natural = some dims) :
    s.refit.display = fitted dims s.displayed := by
  unfold refit
  rw [h]
  cases s.displayed <;> rfl

theorem refit_natural (s : Stage α) : s.refit.natural = s.natural := by
  unfold refit
  split <;> rfl

theorem refit_displayed (s : Stage α) : s.refit.displayed = s.displayed := by
  unfold refit
  split <;> rfl

/-- Computed anew, the stage fits whatever it was. -/
theorem fits_refit (hn : s.natural = screen.image) (hd : s.displayed = screen.element) :
    s.refit.Fits screen where
  natural := s.refit_natural.trans hn
  displayed := s.refit_displayed.trans hd
  display dims hdims := by
    rw [refit_display (hn.trans hdims), hd]

theorem Fits.attach (h : s.Fits screen) (dims : Dims) :
    (s.attach dims).Fits { screen with image := some dims } := fits_refit rfl h.displayed

theorem Fits.resize (h : s.Fits screen) (width height : α) :
    (s.resize width height).Fits { screen with element := some (width, height) } :=
  fits_refit h.natural rfl

theorem Fits.detach (h : s.Fits screen) : s.detach.Fits screen.left :=
  ⟨rfl, h.displayed, fun dims hd => by cases hd⟩

end Stage

/-! ## The scene -/

theorem Shape.boxRect?_congr {α : Type} [Scalar α] {s s' : Shape} (hk : s'.kind = s.kind)
    (hp : s'.points = s.points) : (s'.boxRect? : Option (Rect α)) = s.boxRect? := by
  unfold boxRect?
  rw [hk, hp]

/-- Shapes of one kind with the same points look alike. -/
theorem Visual.ofShape_congr {α : Type} [Scalar α] {s s' : Shape} (hk : s'.kind = s.kind)
    (hp : s'.points = s.points) : (Visual.ofShape s' : List (Visual α)) = Visual.ofShape s := by
  have hsegments : (s'.segments : List (Point α × Point α)) = s.segments := by
    unfold Shape.segments
    rw [hk, hp]
  unfold ofShape
  rw [hk, Shape.boxRect?_congr hk hp, hp, hsegments]

namespace Canvas

variable {α : Type} [Scalar α] {c c' : Canvas α} {shapes : List Shape} {screen : Screen α}

/-- The parts of a canvas on which its scene depends. -/
structure SameLook (c c' : Canvas α) : Prop where
  stage : c'.stage = c.stage
  selected : c'.selected = c.selected
  hovered : c'.hovered = c.hovered
  drawing : c'.drawing = c.drawing
  drag : c'.drag = c.drag

theorem SameLook.shapeVisuals_eq (h : SameLook c c') (shapes : List Shape) :
    ∀ index, c'.shapeVisuals index shapes = c.shapeVisuals index shapes := by
  have hcolor : ∀ index, c'.colorOf index = c.colorOf index := by
    intro index
    unfold colorOf
    rw [h.selected, h.hovered, h.drawing]
  induction shapes with
  | nil => exact fun _ => rfl
  | cons s rest ih =>
    intro index
    unfold shapeVisuals
    rw [ih, hcolor]

theorem SameLook.sceneOf_eq (h : SameLook c c') (shapes : List Shape) :
    c'.sceneOf shapes = c.sceneOf shapes := by
  have hhandles : c'.handleVisuals shapes = c.handleVisuals shapes := by
    unfold handleVisuals movingIndex?
    rw [h.selected, h.drag]
  unfold sceneOf
  rw [h.stage, h.drawing, h.shapeVisuals_eq, hhandles]

/-- What was drawn before plays no part in what is drawn. -/
theorem sceneOf_scene (c : Canvas α) (scene : Scene α) (shapes : List Shape) :
    ({ c with scene } : Canvas α).sceneOf shapes = c.sceneOf shapes :=
  have hlook : SameLook c { c with scene } := ⟨rfl, rfl, rfl, rfl, rfl⟩
  hlook.sceneOf_eq shapes

/-- Without an image nothing is drawn. -/
theorem sceneOf_unattached (h : c.stage.natural = none) (shapes : List Shape) :
    c.sceneOf shapes = .none := by
  unfold sceneOf Stage.blankScene?
  rw [h]
  rfl

/-- A change that is not to be seen on a shape is not to be seen in the scene. -/
theorem sceneOf_modify (c : Canvas α) (shapes : List Shape) (index : Nat) {f : Shape → Shape}
    (hk : ∀ s, (f s).kind = s.kind) (hp : ∀ s, (f s).points = s.points) :
    c.sceneOf (shapes.modify index f) = c.sceneOf shapes := by
  have hvisuals : ∀ (shapes : List Shape) (index first : Nat),
      c.shapeVisuals first (shapes.modify index f) = c.shapeVisuals first shapes := by
    intro shapes
    induction shapes with
    | nil => exact fun index _ => by cases index <;> rfl
    | cons s rest ih =>
      intro index first
      cases index with
      | zero =>
        rw [List.modify_zero_cons]
        unfold shapeVisuals
        rw [Visual.ofShape_congr (hk s) (hp s)]
      | succ index =>
        rw [List.modify_succ_cons]
        unfold shapeVisuals
        rw [ih]
  have hhandles : c.handleVisuals (shapes.modify index f) = c.handleVisuals shapes := by
    unfold handleVisuals
    cases c.selected with
    | none => rfl
    | some k =>
      dsimp only
      by_cases hi : index = k
      · rw [hi, List.getElem?_modify_eq]
        cases shapes[k]? with
        | none => rfl
        | some s =>
          show (if _ then _ else match ((f s).boxRect? : Option (Rect α)) with | _ => _) = _
          rw [Shape.boxRect?_congr (hk s) (hp s)]
      · rw [List.getElem?_modify_ne _ _ hi]
  unfold sceneOf
  rw [hvisuals, hhandles]

/-! ## Nothing selected -/

/-- Nothing is selected, and the pointer is on no shape. -/
structure Idle (c : Canvas α) : Prop where
  selected : c.selected = none
  hovered : c.hovered = none

theorem idle_resetFrame (c : Canvas α) : c.resetFrame.Idle := ⟨rfl, rfl⟩

/-- Drawing an idle canvas changes its scene only. -/
theorem Idle.render_eq (h : c.Idle) (shapes : List Shape) :
    c.render shapes = { c with scene := c.sceneOf shapes } := by
  have hs : validIndex shapes c.selected = c.selected := by rw [h.selected]; rfl
  have hh : validIndex shapes c.hovered = c.hovered := by rw [h.hovered]; rfl
  unfold render
  rw [hs, hh]

theorem Idle.render (h : c.Idle) (shapes : List Shape) : (c.render shapes).Idle := by
  rw [h.render_eq]
  exact ⟨h.selected, h.hovered⟩

/-! ## Drawn -/

/-- Drawing once more would change nothing. -/
structure Drawn (c : Canvas α) (shapes : List Shape) : Prop where
  selected : validIndex shapes c.selected = c.selected
  hovered : validIndex shapes c.hovered = c.hovered
  scene : c.scene = c.sceneOf shapes

theorem Drawn.render_eq (h : c.Drawn shapes) : c.render shapes = c := by
  unfold render
  dsimp only
  rw [h.selected, h.hovered]
  show { c with scene := c.sceneOf shapes } = c
  rw [← h.scene]

theorem drawn_render (c : Canvas α) (shapes : List Shape) : (c.render shapes).Drawn shapes := by
  have hvalid : ∀ index, validIndex shapes (validIndex shapes index) = validIndex shapes index := by
    intro index
    unfold validIndex
    rw [Option.filter_filter]
    simp only [Bool.and_self]
  exact ⟨hvalid _, hvalid _, (sceneOf_scene _ _ shapes).symm⟩

theorem Drawn.of_sameLook (h : c.Drawn shapes) (hl : SameLook c c') (hs : c'.scene = c.scene) :
    c'.Drawn shapes where
  selected := by
    rw [hl.selected]
    exact h.selected
  hovered := by
    rw [hl.hovered]
    exact h.hovered
  scene := by
    rw [hs, hl.sceneOf_eq]
    exact h.scene

/-- The canvas has drawn some shapes, for an image in an element. -/
structure Shows (c : Canvas α) (shapes : List Shape) (screen : Screen α) : Prop where
  drawn : c.Drawn shapes
  fits : c.stage.Fits screen
  /-- Without an image nothing can be pointed at. -/
  idle : screen.image = none → c.Idle

/-- Without an image it makes no difference which shapes there are. -/
theorem Shows.of_unattached (h : c.Shows shapes screen) (hn : screen.image = none)
    (shapes' : List Shape) : c.Shows shapes' screen where
  drawn := by
    have hnatural : c.stage.natural = none := h.fits.natural.trans hn
    refine ⟨?_, ?_, ?_⟩
    · rw [(h.idle hn).selected]
      rfl
    · rw [(h.idle hn).hovered]
      rfl
    · rw [h.drawn.scene, sceneOf_unattached hnatural, sceneOf_unattached hnatural]
  fits := h.fits
  idle := h.idle

theorem shows_render (hf : c.stage.Fits screen) (hi : screen.image = none → c.Idle)
    (shapes : List Shape) : (c.render shapes).Shows shapes screen :=
  ⟨c.drawn_render shapes, hf, fun hn => (hi hn).render shapes⟩

/-- Whatever changes, it is drawn at last. -/
theorem Shows.render_of_idle (h : c.Shows shapes screen) (hstage : c'.stage = c.stage)
    (hi : c.Idle → c'.Idle) (shapes' : List Shape) : (c'.render shapes').Shows shapes' screen :=
  shows_render (hstage ▸ h.fits) (fun hn => hi (h.idle hn)) shapes'

/-- With an image, what is selected may change too. -/
theorem Shows.render_of_attached (h : c.Shows shapes screen) (ha : c.stage.isAttached = true)
    (hstage : c'.stage = c.stage) (shapes' : List Shape) :
    (c'.render shapes').Shows shapes' screen := by
  refine shows_render (hstage ▸ h.fits) (fun hn => ?_) shapes'
  unfold Stage.isAttached at ha
  rw [h.fits.natural, hn] at ha
  cases ha

theorem Shows.of_sameLook (h : c.Shows shapes screen) (hl : SameLook c c')
    (hs : c'.scene = c.scene) : c'.Shows shapes screen where
  drawn := h.drawn.of_sameLook hl hs
  fits := hl.stage ▸ h.fits
  idle hn := ⟨hl.selected.trans (h.idle hn).selected, hl.hovered.trans (h.idle hn).hovered⟩

theorem shows_resetFrame (hf : c.stage.Fits screen) (shapes : List Shape) :
    c.resetFrame.Shows shapes screen.left where
  drawn := ⟨rfl, rfl, (sceneOf_unattached rfl shapes).symm⟩
  fits := hf.detach
  idle _ := c.idle_resetFrame

/-! ### The operations -/

theorem Shows.click (h : c.Shows shapes screen) (pos : Point α) :
    (c.click shapes pos).1.Shows (c.click shapes pos).2 screen := by
  unfold Canvas.click
  split
  · rename_i ha
    refine h.render_of_attached ha ?_ _
    cases c.drawing with
    | some d => rfl
    | none =>
      dsimp only
      split
      · rfl
      · split
        · rfl
        · unfold Canvas.begin
          cases c.mode <;> rfl
  · exact h

theorem Shows.pointerMove (h : c.Shows shapes screen) (pos : Point α) :
    (c.pointerMove shapes pos).Shows shapes screen := by
  unfold Canvas.pointerMove
  split
  · rename_i ha
    refine h.render_of_attached ha ?_ _
    cases c.drawing <;> rfl
  · exact h

theorem Shows.dragStart (h : c.Shows shapes screen) (pos : Point α) :
    (c.dragStart shapes pos).2.Shows shapes screen := by
  unfold Canvas.dragStart
  split
  · exact h
  · split
    · refine h.render_of_idle ?_ ?_ shapes
      · rfl
      · exact fun hi => ⟨hi.selected, hi.hovered⟩
    · exact h

theorem Shows.dragMove (h : c.Shows shapes screen) (pos : Point α) :
    (c.dragMove shapes pos).1.Shows (c.dragMove shapes pos).2 screen := by
  unfold Canvas.dragMove
  dsimp only
  split
  · exact h
  · exact h.render_of_idle rfl (fun hi => hi) _
  · refine h.render_of_idle ?_ ?_ _
    · rfl
    · exact fun hi => ⟨hi.selected, hi.hovered⟩

theorem Shows.dragEnd (h : c.Shows shapes screen) : (c.dragEnd shapes).Shows shapes screen := by
  unfold Canvas.dragEnd
  split
  · refine h.render_of_idle ?_ ?_ shapes
    · rfl
    · exact fun hi => ⟨hi.selected, hi.hovered⟩
  · exact h

theorem Shows.cancelDraw (h : c.Shows shapes screen) :
    (c.cancelDraw shapes).2.Shows shapes screen := by
  unfold Canvas.cancelDraw
  split
  · refine h.render_of_idle ?_ ?_ shapes
    · rfl
    · exact fun hi => ⟨hi.selected, hi.hovered⟩
  · exact h

/-- What is selected is one of the shapes, so that it is removed and the rest drawn. -/
theorem Shows.deleteSelection (h : c.Shows shapes screen) :
    (c.deleteSelection shapes).2.1.Shows (c.deleteSelection shapes).2.2 screen := by
  unfold Canvas.deleteSelection
  split
  · exact h
  · rename_i index hs
    have hvalid := h.drawn.selected
    rw [hs] at hvalid
    have hlt : index < shapes.length := of_decide_eq_true (Option.filter_eq_some_iff.1 hvalid).2
    dsimp only
    rw [List.getElem?_eq_getElem hlt]
    refine h.render_of_idle ?_ ?_ _
    · rfl
    · exact fun _ => ⟨rfl, rfl⟩

theorem Shows.handleKey (h : c.Shows shapes screen) (e : KeyEvent) :
    (c.handleKey shapes e).2.1.Shows (c.handleKey shapes e).2.2 screen := by
  unfold Canvas.handleKey
  split
  · exact h
  · split
    · exact h.cancelDraw
    · split
      · exact h.deleteSelection
      · exact h

theorem Shows.setMode (h : c.Shows shapes screen) (mode : DrawMode) :
    (c.setMode mode shapes).Shows shapes screen := by
  refine h.render_of_idle ?_ ?_ shapes
  · rfl
  · exact fun hi => ⟨hi.selected, rfl⟩

/-- The categories are not to be seen. -/
theorem Shows.setCategories (h : c.Shows shapes screen) (categories : List String) :
    (c.setCategories categories).Shows shapes screen := by
  unfold Canvas.setCategories
  dsimp only
  split <;> exact h.of_sameLook ⟨rfl, rfl, rfl, rfl, rfl⟩ rfl

theorem Shows.setCategory (h : c.Shows shapes screen) (category : String) :
    (c.setCategory category).2.Shows shapes screen := by
  unfold Canvas.setCategory
  split
  · exact h.of_sameLook ⟨rfl, rfl, rfl, rfl, rfl⟩ rfl
  · exact h

/-- Neither the category nor the track of a shape is to be seen. -/
theorem Shows.modifySelected (h : c.Shows shapes screen) {f : Shape → Shape}
    (hk : ∀ s, (f s).kind = s.kind) (hp : ∀ s, (f s).points = s.points) :
    c.Shows (c.modifySelected shapes f).2 screen := by
  have hmodify : ∀ index, c.Shows (shapes.modify index f) screen := by
    intro index
    refine ⟨⟨?_, ?_, ?_⟩, h.fits, h.idle⟩
    · unfold validIndex
      rw [List.length_modify]
      exact h.drawn.selected
    · unfold validIndex
      rw [List.length_modify]
      exact h.drawn.hovered
    · rw [sceneOf_modify c shapes index hk hp]
      exact h.drawn.scene
  unfold Canvas.modifySelected
  split
  · exact h
  · split
    · exact hmodify _
    · exact h

end Canvas

/-- The operation sets the stage, and leaves it to the caller to draw. -/
def CanvasOp.SetsStage {α : Type} : CanvasOp α → Prop
  | .attach _ => True
  | .resize _ _ => True
  | .resetFrame => True
  | _ => False

namespace Canvas

variable {α : Type} [Scalar α] {c : Canvas α} {shapes : List Shape} {screen : Screen α}

/-- After every other operation the scene is the one of the canvas and the shapes as they are. -/
theorem Shows.perform (h : c.Shows shapes screen) {op : CanvasOp α} (hop : ¬ op.SetsStage) :
    (c.perform shapes op).2.1.Shows (c.perform shapes op).2.2 screen := by
  cases op with
  | setMode mode => exact h.setMode mode
  | setCategories categories => exact h.setCategories categories
  | setCategory category => exact h.setCategory category
  | attach natural => exact absurd trivial hop
  | resize width height => exact absurd trivial hop
  | resetFrame => exact absurd trivial hop
  | render => exact h.render_of_idle rfl (fun hi => hi) shapes
  | click p => exact h.click p
  | pointerMove p => exact h.pointerMove p
  | dragStart p => exact h.dragStart p
  | dragMove p => exact h.dragMove p
  | dragEnd => exact h.dragEnd
  | cancelDraw => exact h.cancelDraw
  | deleteSelection => exact h.deleteSelection
  | key e => exact h.handleKey e
  | setSelectedCategory category =>
    show c.Shows (c.setSelectedCategory shapes category).2 screen
    unfold Canvas.setSelectedCategory
    split
    · exact h.modifySelected (fun _ => rfl) fun _ => rfl
    · exact h
  | setSelectedTrack text => exact h.modifySelected (fun _ => rfl) fun _ => rfl

end Canvas

end Labeling
