import Labeling.Proofs.Canvas.Drawn
import Labeling.Proofs.Tool.Reaction

/-!
# Answers that reach a tool in any order

When an item is shown, its image, its stored annotations and what was computed for it
arrive one after the other, and the tool takes each of them when it comes. Which comes
first makes no difference to the tool (`Tool.stored_imageLoaded`,
`Tool.fetched_imageLoaded`, `Tool.fetched_stored`, `Tool.fetched_comm`).

* What the shape tool draws is a function of its shapes and its stage, as long as nothing
  is selected on the canvas and the pointer is nowhere (`Canvas.Idle`). A drawing forgets
  the selection of shapes that are not there, so with a selection the order would matter.
* Each answer to the track tool changes its engine or its stage and draws anew, or does
  nothing at all (`TrackTool.redraw`).
-/

namespace Labeling

/-- The same view with another image. -/
def View.withDims (v : View) (dims : Option Dims) : View := { v with dims }

/-! ## The canvas -/

namespace Canvas

variable {α : Type} [Scalar α] {c : Canvas α}

theorem Idle.cancelDraw (h : c.Idle) (shapes : List Shape) : (c.cancelDraw shapes).2.Idle := by
  unfold Canvas.cancelDraw
  split
  · refine Idle.render ?_ _
    exact ⟨h.selected, h.hovered⟩
  · exact h

theorem Idle.deleteSelection (h : c.Idle) (shapes : List Shape) :
    (c.deleteSelection shapes).2.1.Idle := by
  unfold Canvas.deleteSelection
  rw [h.selected]
  exact h

/-- On a frame without shapes a canvas stays idle, whatever is done. -/
theorem Idle.perform_nil (h : c.Idle) (op : CanvasOp α) : (c.perform [] op).2.1.Idle := by
  cases op with
  | setMode mode =>
    refine Idle.render ?_ _
    exact ⟨h.selected, rfl⟩
  | setCategories categories =>
    show (c.setCategories categories).Idle
    unfold setCategories
    dsimp only
    split <;> exact ⟨h.selected, h.hovered⟩
  | setCategory category =>
    show (c.setCategory category).2.Idle
    unfold setCategory
    split <;> exact ⟨h.selected, h.hovered⟩
  | attach natural => exact ⟨h.selected, h.hovered⟩
  | resize width height => exact ⟨h.selected, h.hovered⟩
  | resetFrame => exact c.idle_resetFrame
  | render => exact h.render _
  | click p =>
    show (c.click [] p).1.Idle
    unfold click
    split
    · refine Idle.render ?_ _
      cases hd : c.drawing with
      | some d => exact ⟨h.selected, h.hovered⟩
      | none =>
        -- nothing is hit and nothing is selected, so something new is begun
        simp only [hitShape?, topmost?, h.selected, Option.isSome_none, Bool.false_eq_true,
          if_false]
        unfold begin
        cases c.mode <;> exact ⟨h.selected, h.hovered⟩
    · exact h
  | pointerMove p =>
    show (c.pointerMove [] p).Idle
    unfold pointerMove
    split
    · refine Idle.render ?_ _
      cases hd : c.drawing with
      | some d => exact ⟨h.selected, h.hovered⟩
      | none => exact ⟨h.selected, rfl⟩
    · exact h
  | dragStart p =>
    show (c.dragStart [] p).2.Idle
    unfold dragStart
    split
    · exact h
    · split
      · refine Idle.render ?_ _
        exact ⟨h.selected, h.hovered⟩
      · exact h
  | dragMove p =>
    show (c.dragMove [] p).1.Idle
    unfold dragMove
    dsimp only
    split
    · exact h
    · exact h.render _
    · refine Idle.render ?_ _
      exact ⟨h.selected, h.hovered⟩
  | dragEnd =>
    show (c.dragEnd []).Idle
    unfold dragEnd
    split
    · refine Idle.render ?_ _
      exact ⟨h.selected, h.hovered⟩
    · exact h
  | cancelDraw => exact h.cancelDraw _
  | deleteSelection => exact h.deleteSelection _
  | key e =>
    show (c.handleKey [] e).2.1.Idle
    unfold handleKey
    split
    · exact h
    · split
      · exact h.cancelDraw _
      · split
        · exact h.deleteSelection _
        · exact h
  | setSelectedCategory category => exact h
  | setSelectedTrack text => exact h

end Canvas

/-! ## The shape tool -/

namespace ShapeTool

/-- A value holds shapes or is ignored; which of both does not depend on what arrived
before. -/
theorem load_cases (encoding : Encoding) (frameCount : Nat) (data : Json) :
    (∀ (t : ShapeTool) (v : View), t.encoding = encoding → v.frameCount = frameCount →
      t.load v data = t) ∨
    ∃ frames, ∀ (t : ShapeTool) (v : View), t.encoding = encoding → v.frameCount = frameCount →
      t.load v data = if v.isRendered then { t with frames }.render v else { t with frames } := by
  by_cases hd : data = .arr []
  · refine Or.inl fun t v _ _ => ?_
    rw [hd]
    rfl
  · cases hf : encoding.frames? data with
    | none =>
      refine Or.inl fun t v he _ => ?_
      unfold load
      split
      · rfl
      · rw [he, hf]
    | some frames =>
      refine Or.inr ⟨resized frameCount [] frames, fun t v he hc => ?_⟩
      unfold load
      split
      · exact absurd rfl hd
      · rw [he, hf, hc]

/-- The same tool with another drawing. -/
def drawn (t : ShapeTool) (scene : Scene Float) : ShapeTool :=
  { t with canvas := { t.canvas with scene } }

theorem render_eq {t : ShapeTool} (h : t.canvas.Idle) (v : View) :
    t.render v = t.drawn (t.canvas.sceneOf (t.shown v)) := by
  unfold render editShown drawn
  dsimp only [Canvas.perform]
  rw [h.render_eq]

/-- What was drawn before plays no part in what is drawn. -/
theorem render_drawn {t : ShapeTool} (h : t.canvas.Idle) (scene : Scene Float) (v : View) :
    (t.drawn scene).render v = t.render v := by
  have hdrawn : (t.drawn scene).canvas.Idle := ⟨h.selected, h.hovered⟩
  rw [render_eq h, render_eq hdrawn]
  exact congrArg t.drawn (t.canvas.sceneOf_scene scene (t.shown v))

theorem render_idle {t : ShapeTool} (h : t.canvas.Idle) (v : View) : (t.render v).canvas.Idle :=
  h.render _

theorem load_idle {t : ShapeTool} (h : t.canvas.Idle) (v : View) (data : Json) :
    (t.load v data).canvas.Idle := by
  rcases load_cases t.encoding v.frameCount data with hnone | ⟨frames, hload⟩
  · rw [hnone t v rfl rfl]
    exact h
  · rw [hload t v rfl rfl]
    split
    · exact h.render _
    · exact h

theorem imageLoaded_idle {t : ShapeTool} (h : t.canvas.Idle) (v : View) :
    (t.imageLoaded v).canvas.Idle := by
  unfold imageLoaded
  dsimp only
  split
  · refine render_idle ?_ v
    exact ⟨h.selected, h.hovered⟩
  · exact h.render _

theorem editShown_idle {t : ShapeTool} (h : t.canvas.Idle) {v : View} (hv : v.frame = none)
    (op : CanvasOp Float) : (t.editShown v op).2.canvas.Idle := by
  have hnone : t.shown v = [] := by
    unfold shown
    rw [hv]
    rfl
  unfold editShown
  rw [hnone]
  exact h.perform_nil op

theorem editOutcome_none (t : ShapeTool) {v : View} (hv : v.frame = none) (op : CanvasOp Float)
    (otherwise : Reply) : t.editOutcome v op otherwise = ⟨t, [], otherwise⟩ := by
  unfold editOutcome editFrame
  rw [hv]
  rfl

/-- While no frame is shown nothing can be selected. -/
theorem handle_idle {t : ShapeTool} (h : t.canvas.Idle) {v : View} (hv : v.frame = none)
    (e : ToolEvent) : (t.handle v e).tool.canvas.Idle := by
  cases e with
  | stored data => exact load_idle h v data
  | imageLoaded => exact imageLoaded_idle h v
  | key e =>
    show (t.editOutcome v (.key e) (.flag false)).tool.canvas.Idle
    rw [t.editOutcome_none hv]
    exact h
  | click p =>
    show (t.editOutcome v (.click p) .nothing).tool.canvas.Idle
    rw [t.editOutcome_none hv]
    exact h
  | dragMove p =>
    show (t.editOutcome v (.dragMove p) .nothing).tool.canvas.Idle
    rw [t.editOutcome_none hv]
    exact h
  | pointerMove p => exact editShown_idle h hv (.pointerMove p)
  | dragStart p => exact editShown_idle h hv (.dragStart p)
  | dragEnd => exact editShown_idle h hv .dragEnd
  | resize width height =>
    refine render_idle ?_ v
    exact ⟨h.selected, h.hovered⟩
  | render => exact h.render _
  | _ => exact h

theorem perform_idle {t : ShapeTool} (h : t.canvas.Idle) {v : View} (hv : v.frame = none)
    {op : ToolOp} {o : Outcome ShapeTool} (ho : Tool.performShape t v op = some o) :
    o.tool.canvas.Idle := by
  cases op <;> simp only [Tool.performShape, t.editOutcome_none hv, Option.some.injEq,
    reduceCtorEq] at ho <;> subst ho
  case setMode mode =>
    refine editShown_idle ?_ hv (.setMode mode)
    exact h
  case setCategories text =>
    refine editShown_idle ?_ hv (.setMode t.params.mode)
    exact h.perform_nil (.setCategories (commaItems text))
  case setCategory category => exact editShown_idle h hv (.setCategory category)
  case cancelDraw => exact editShown_idle h hv .cancelDraw
  all_goals exact h

/-- The image and the stored shapes arrive in any order. -/
theorem load_imageLoaded {t : ShapeTool} (h : t.canvas.Idle) (v : View) (before : Option Dims)
    (dims : Dims) (data : Json) :
    (t.load (v.withDims before) data).imageLoaded (v.withDims (some dims)) =
      (t.imageLoaded (v.withDims (some dims))).load (v.withDims (some dims)) data := by
  have hattach : ({ t with canvas := t.canvas.attach dims } : ShapeTool).canvas.Idle :=
    ⟨h.selected, h.hovered⟩
  rcases load_cases t.encoding v.frameCount data with hnone | ⟨frames, hload⟩
  · rw [hnone t (v.withDims before) rfl rfl,
      hnone (t.imageLoaded (v.withDims (some dims))) (v.withDims (some dims)) rfl rfl]
  · -- either way the stored shapes are drawn at last on the new stage
    have hframes : ({ t with frames } : ShapeTool).canvas.Idle := h
    have hboth : ({ t with frames, canvas := t.canvas.attach dims } : ShapeTool).canvas.Idle :=
      ⟨h.selected, h.hovered⟩
    have hleft : (t.load (v.withDims before) data).imageLoaded (v.withDims (some dims)) =
        ({ t with frames, canvas := t.canvas.attach dims } : ShapeTool).render
          (v.withDims (some dims)) := by
      rw [hload t (v.withDims before) rfl rfl]
      split
      · rw [render_eq hframes]
        exact render_drawn hboth _ _
      · rfl
    have hright : (t.imageLoaded (v.withDims (some dims))).load (v.withDims (some dims)) data =
        ({ t with frames, canvas := t.canvas.attach dims } : ShapeTool).render
          (v.withDims (some dims)) := by
      rw [hload (t.imageLoaded (v.withDims (some dims))) (v.withDims (some dims)) rfl rfl]
      have himage : t.imageLoaded (v.withDims (some dims)) =
          ({ t with canvas := t.canvas.attach dims } : ShapeTool).drawn _ := render_eq hattach _
      rw [himage]
      exact render_drawn hboth _ _
    rw [hleft, hright]

end ShapeTool

/-! ## The track tool -/

namespace TrackEngine

/-- The engine after stored tracks were taken, which does not depend on what it held. -/
def ofStored (frames : List (List Detection)) (metadata : Option Json) : TrackEngine :=
  ⟨frames, metadata, nextAfter (tracks frames), true⟩

/-- The engine after what was computed was taken. -/
def takeFresh (e : TrackEngine) (purpose : ToolPurpose) (value : Json) : TrackEngine :=
  match purpose with
  | .freshDetections =>
    match detectionFrames? value with
    | some frames => (e.applyFresh frames).2
    | none => e
  | .freshMetadata => (e.applyFreshMetadata value).2
  | _ => e

/-- Once stored tracks were taken, nothing computed is. -/
theorem takeFresh_of_hasStored {e : TrackEngine} (h : e.hasStored = true) (purpose : ToolPurpose)
    (value : Json) : e.takeFresh purpose value = e := by
  unfold takeFresh
  cases purpose with
  | freshDetections =>
    cases detectionFrames? value with
    | none => rfl
    | some frames => simp [applyFresh, h]
  | freshMetadata => simp [applyFreshMetadata, h]
  | _ => rfl

/-- Detections and their metadata arrive in any order. -/
theorem takeFresh_comm (e : TrackEngine) (detections metadata : Json) :
    (e.takeFresh .freshDetections detections).takeFresh .freshMetadata metadata =
      (e.takeFresh .freshMetadata metadata).takeFresh .freshDetections detections := by
  cases h : e.hasStored with
  | true => simp only [takeFresh_of_hasStored h]
  | false =>
    cases hd : detectionFrames? detections with
    | none => simp [takeFresh, hd]
    | some frames => simp [takeFresh, hd, applyFresh, applyFreshMetadata, h]

end TrackEngine

namespace TrackTool

/-- The tool with another engine and on another stage, drawn anew. -/
def redraw (t : TrackTool) (v : View) (f : TrackEngine → TrackEngine)
    (g : Stage Float → Stage Float) : TrackTool :=
  { t with engine := f t.engine, stage := g t.stage }.render v

/-- Only the last drawing is seen. -/
theorem redraw_redraw (t : TrackTool) (v v' : View) (f f' : TrackEngine → TrackEngine)
    (g g' : Stage Float → Stage Float) :
    (t.redraw v f g).redraw v' f' g' = t.redraw v' (f' ∘ f) (g' ∘ g) := rfl

theorem load_of_frames {data : Json} {frames : List (List Detection)}
    (hf : detectionFrames? data = some frames) (hne : frames ≠ []) (t : TrackTool) (v : View) :
    t.load v data =
      t.redraw v (fun _ => .ofStored frames (v.itemMeta.map fun m => m.toJson.sorted)) id := by
  unfold load
  rw [hf]
  cases frames with
  | nil => exact absurd rfl hne
  | cons frame rest => rfl

/-- A value holds stored tracks or is ignored; which of both does not depend on what
arrived before. -/
theorem load_cases (itemMeta : Option ItemMeta) (data : Json) :
    (∀ (t : TrackTool) (v : View), t.load v data = t) ∨
    ∃ frames, ∀ (t : TrackTool) (v : View), v.itemMeta = itemMeta → t.load v data =
      t.redraw v (fun _ => .ofStored frames (itemMeta.map fun m => m.toJson.sorted)) id := by
  cases hf : detectionFrames? data with
  | none =>
    refine Or.inl fun t v => ?_
    unfold load
    rw [hf]
  | some frames =>
    by_cases hne : frames = []
    · refine Or.inl fun t v => ?_
      unfold load
      rw [hf, hne]
      rfl
    · refine Or.inr ⟨frames, fun t v hm => ?_⟩
      rw [← hm]
      exact load_of_frames hf hne t v

/-- What was computed is taken, unless the request for it failed. -/
theorem fetched_cases (purpose : ToolPurpose) (result : Response) :
    (∀ (t : TrackTool) (v : View), (t.fetched v purpose result).tool = t) ∨
    ∃ value, ∀ (t : TrackTool) (v : View), (t.fetched v purpose result).tool =
      t.redraw v (fun e => e.takeFresh purpose value) id := by
  cases hr : result.json with
  | error f =>
    refine Or.inl fun t v => ?_
    unfold fetched
    rw [hr]
  | ok value =>
    refine Or.inr ⟨value, fun t v => ?_⟩
    have htake : t.applyFresh purpose value =
        { t with engine := t.engine.takeFresh purpose value } := by
      unfold applyFresh TrackEngine.takeFresh
      cases purpose with
      | freshDetections => cases detectionFrames? value <;> rfl
      | _ => rfl
    unfold fetched
    rw [hr]
    show (t.applyFresh purpose value).render v = _
    rw [htake]
    rfl

theorem load_imageLoaded (t : TrackTool) (v : View) (before : Option Dims) (dims : Dims)
    (data : Json) :
    (t.load (v.withDims before) data).imageLoaded (v.withDims (some dims)) =
      (t.imageLoaded (v.withDims (some dims))).load (v.withDims (some dims)) data := by
  rcases load_cases v.itemMeta data with hnone | ⟨frames, hload⟩
  · rw [hnone, hnone]
  · rw [hload t (v.withDims before) rfl, hload _ (v.withDims (some dims)) rfl]
    rfl

theorem fetched_imageLoaded (t : TrackTool) (v : View) (before : Option Dims) (dims : Dims)
    (purpose : ToolPurpose) (result : Response) :
    (t.fetched (v.withDims before) purpose result).tool.imageLoaded (v.withDims (some dims)) =
      ((t.imageLoaded (v.withDims (some dims))).fetched (v.withDims (some dims)) purpose
        result).tool := by
  rcases fetched_cases purpose result with hnone | ⟨value, htake⟩
  · rw [hnone, hnone]
  · rw [htake, htake]
    rfl

/-- Stored tracks win over what was computed, whichever arrives first. -/
theorem fetched_load (t : TrackTool) (v : View) (purpose : ToolPurpose) (result : Response)
    (data : Json) :
    (t.fetched v purpose result).tool.load v data =
      ((t.load v data).fetched v purpose result).tool := by
  rcases fetched_cases purpose result with hnone | ⟨value, htake⟩
  · rw [hnone, hnone]
  · rcases load_cases v.itemMeta data with hnone | ⟨frames, hload⟩
    · rw [hnone, hnone]
    · rw [htake, htake, hload _ v rfl, hload t v rfl, redraw_redraw, redraw_redraw]
      congr 1
      funext e
      exact (TrackEngine.takeFresh_of_hasStored rfl purpose value).symm

theorem fetched_comm (t : TrackTool) (v : View) (detections metadata : Response) :
    ((t.fetched v .freshDetections detections).tool.fetched v .freshMetadata metadata).tool =
      ((t.fetched v .freshMetadata metadata).tool.fetched v .freshDetections detections).tool := by
  rcases fetched_cases .freshDetections detections with hnone | ⟨value, htake⟩
  · rw [hnone, hnone]
  · rcases fetched_cases .freshMetadata metadata with hnone' | ⟨value', htake'⟩
    · rw [hnone', hnone']
    · rw [htake, htake, htake', htake', redraw_redraw, redraw_redraw]
      congr 1
      funext e
      exact e.takeFresh_comm value value'

end TrackTool

/-! ## Tools in general -/

namespace Tool

/-- The tool after an event. -/
def after (t : Tool) (v : View) (e : ToolEvent) : Tool := (t.handle v e).tool

/-- Nothing is selected on the canvas, if the tool has one. -/
def Idle : Tool → Prop
  | .shape t => t.canvas.Idle
  | _ => True

theorem idle_resetFrame (t : Tool) : t.resetFrame.Idle := by
  cases t with
  | shape t => exact t.canvas.idle_resetFrame
  | _ => trivial

/-- While no frame is shown nothing can be selected. -/
theorem Reacts.idle {told : ToolEvent → Prop} {t t' : Tool} {v : View}
    (hr : t.Reacts told v t') (hv : v.frame = none) (h : t.Idle) : t'.Idle := by
  have hhandle : ∀ e, (t.handle v e).tool.Idle := by
    intro e
    cases t with
    | shape t => exact ShapeTool.handle_idle h hv e
    | _ => trivial
  rcases hr with ⟨e, -, rfl⟩ | ⟨op, o, ho, rfl⟩
  · exact hhandle e
  · rcases perform_eq_some ho with ⟨c, -, rfl⟩ | rfl | ⟨s, p, rfl, hp, rfl⟩ | ⟨s, p, rfl, -, rfl⟩ |
      ⟨s, p, rfl, -, rfl⟩ | ⟨s, p, rfl, -, rfl⟩
    · exact h
    · exact hhandle .render
    · exact ShapeTool.perform_idle h hv hp
    all_goals trivial

theorem Idle.itemShown {t : Tool} (h : t.Idle) (v : View) : (t.handle v .itemShown).tool.Idle := by
  cases t with
  | shape t => exact h
  | _ => trivial

theorem Idle.stored {t : Tool} (h : t.Idle) (v : View) (data : Json) :
    (t.after v (.stored data)).Idle := by
  cases t with
  | shape t => exact ShapeTool.load_idle h v data
  | _ => trivial

theorem Idle.imageLoaded {t : Tool} (h : t.Idle) (v : View) : (t.after v .imageLoaded).Idle := by
  cases t with
  | shape t => exact ShapeTool.imageLoaded_idle h v
  | _ => trivial

theorem Idle.fetched {t : Tool} (h : t.Idle) (v : View) (p : ToolPurpose) (result : Response) :
    (t.after v (.fetched p result)).Idle := by
  cases t with
  | shape t => exact h
  | _ => trivial

/-! ### What is asked for in between -/

/-- An answer about the item makes a tool ask for nothing further. -/
theorem stored_commands (t : Tool) (v : View) (data : Json) :
    (t.handle v (.stored data)).commands = [] := by
  cases t <;> rfl

theorem imageLoaded_commands (t : Tool) (v : View) : (t.handle v .imageLoaded).commands = [] := by
  cases t <;> rfl

/-- The track tool reports that a request for it failed. -/
theorem fetched_commands {t : Tool} (h : t.kind = .detectionToTrack) (v : View) (p : ToolPurpose)
    (result : Response) : (t.handle v (.fetched p result)).commands =
      match result.json with
      | .ok _ => []
      | .error f => [.reportError f.userMessage] := by
  cases t with
  | track t =>
    show (t.fetched v p result).commands = _
    unfold TrackTool.fetched
    cases result.json <;> rfl
  | _ => cases h

/-! ### The order of arrival -/

theorem stored_imageLoaded {t : Tool} (h : t.Idle) (v : View) (before : Option Dims) (dims : Dims)
    (data : Json) :
    (t.after (v.withDims before) (.stored data)).after (v.withDims (some dims)) .imageLoaded =
      (t.after (v.withDims (some dims)) .imageLoaded).after (v.withDims (some dims))
        (.stored data) := by
  cases t with
  | shape t => exact congrArg Tool.shape (ShapeTool.load_imageLoaded h v before dims data)
  | int t => rfl
  | track t => exact congrArg Tool.track (t.load_imageLoaded v before dims data)
  | geoJson t => rfl

theorem fetched_imageLoaded (t : Tool) (v : View) (before : Option Dims) (dims : Dims)
    (p : ToolPurpose) (result : Response) :
    (t.after (v.withDims before) (.fetched p result)).after (v.withDims (some dims)) .imageLoaded =
      (t.after (v.withDims (some dims)) .imageLoaded).after (v.withDims (some dims))
        (.fetched p result) := by
  cases t with
  | shape t => rfl
  | int t => rfl
  | track t => exact congrArg Tool.track (t.fetched_imageLoaded v before dims p result)
  | geoJson t => rfl

theorem fetched_stored (t : Tool) (v : View) (p : ToolPurpose) (result : Response) (data : Json) :
    (t.after v (.fetched p result)).after v (.stored data) =
      (t.after v (.stored data)).after v (.fetched p result) := by
  cases t with
  | shape t => rfl
  | int t => rfl
  | track t => exact congrArg Tool.track (t.fetched_load v p result data)
  | geoJson t => rfl

theorem fetched_comm (t : Tool) (v : View) (detections metadata : Response) :
    (t.after v (.fetched .freshDetections detections)).after v
        (.fetched .freshMetadata metadata) =
      (t.after v (.fetched .freshMetadata metadata)).after v
        (.fetched .freshDetections detections) := by
  cases t with
  | shape t => rfl
  | int t => rfl
  | track t => exact congrArg Tool.track (t.fetched_comm v detections metadata)
  | geoJson t =>
    -- the feature tool asked for neither of them
    have hnone : ∀ (t : FeatureTool) p (result : Response), p ≠ .featureCollection →
        (t.fetched p result).tool = t := by
      intro t p result hp
      unfold FeatureTool.fetched
      split <;> first | rfl | exact absurd rfl hp
    have hd := hnone t .freshDetections detections (by simp)
    have hm := hnone t .freshMetadata metadata (by simp)
    have hleft : ((t.fetched .freshDetections detections).tool.fetched .freshMetadata
        metadata).tool = t := by rw [hd, hm]
    have hright : ((t.fetched .freshMetadata metadata).tool.fetched .freshDetections
        detections).tool = t := by rw [hm, hd]
    exact congrArg Tool.geoJson (hleft.trans hright.symm)

end Tool

end Labeling
