import Labeling.Proofs.Tool.Entries
import Labeling.Proofs.Canvas.Grip

/-!
# The shapes of the shape tool

The shape tool lends its canvas the shapes of the frame that is shown. As long as the drag in
progress grips one of these, whatever the user does leaves all shapes of all frames as they
should be (`Tool.Reacts.shapesHold`).

When stored shapes arrive they replace the shapes of all frames, while the canvas goes on with
its drag. `ShapeTool.Accepts` is what this takes: boxes with two corners, and a drag that
grips the shape that is now at its place. Nothing in the tool provides for the second
(`ShapeTool.load_during_drag`).
-/

namespace Labeling

namespace ShapeTool

variable {t : ShapeTool} {v : View}

/-- The shapes of a frame, and none if there is no such frame. -/
def shownAt (t : ShapeTool) (frame : Option Nat) : List Shape :=
  (frame.bind fun k => t.frames[k]?).getD []

/-- All shapes of all frames are as they should be, and the drag grips one of the frame. -/
structure Holds (t : ShapeTool) (frame : Option Nat) : Prop where
  sound : ∀ shapes ∈ t.frames, ∀ s ∈ shapes, s.Sound
  grips : ∀ d, t.canvas.drag = some d → d.Grips (t.shownAt frame)

theorem sound_shownAt (h : ∀ shapes ∈ t.frames, ∀ s ∈ shapes, s.Sound) (frame : Option Nat) :
    ∀ s ∈ t.shownAt frame, s.Sound := by
  intro s hs
  unfold shownAt at hs
  cases hfound : frame.bind fun k => t.frames[k]? with
  | none =>
    rw [hfound] at hs
    cases hs
  | some shapes =>
    rw [hfound] at hs
    obtain ⟨k, -, hk⟩ := Option.bind_eq_some_iff.1 hfound
    exact h shapes (List.mem_of_getElem? hk) s hs

/-- The canvas holds the shapes that it is lent. -/
theorem Holds.canvas {frame : Option Nat} (h : t.Holds frame) :
    t.canvas.Holds (t.shownAt frame) :=
  ⟨sound_shownAt h.sound frame, h.grips⟩

theorem holds_of_no_drag {frame : Option Nat} (hs : ∀ shapes ∈ t.frames, ∀ s ∈ shapes, s.Sound)
    (hd : t.canvas.drag = none) : t.Holds frame :=
  ⟨hs, fun d h => by rw [hd] at h; cases h⟩

/-- While no frame is shown nothing is dragged. -/
theorem Holds.drag_eq_none (h : t.Holds none) : t.canvas.drag = none := by
  cases hd : t.canvas.drag with
  | none => rfl
  | some d =>
    obtain ⟨s, hs, -⟩ := h.grips d hd
    cases hs

/-- Only the shapes and the drag matter. -/
theorem Holds.of_eq {t' : ShapeTool} {frame : Option Nat} (h : t.Holds frame)
    (hf : t'.frames = t.frames) (hd : t'.canvas.drag = t.canvas.drag) : t'.Holds frame := by
  have hshown : t'.shownAt frame = t.shownAt frame := by
    unfold shownAt
    rw [hf]
  refine ⟨by rw [hf]; exact h.sound, fun d hdrag => ?_⟩
  rw [hshown]
  exact h.grips d (hd ▸ hdrag)

/-- Leaving a frame ends the drag. -/
theorem Holds.resetFrame {frame : Option Nat} (h : t.Holds frame) (frame' : Option Nat) :
    t.resetFrame.Holds frame' :=
  holds_of_no_drag h.sound rfl

/-! ## The canvas at work -/

/-- An operation on the frame that is shown is one of the canvas on its shapes, which take their
place again. -/
theorem editFrame_eq_some {t' : ShapeTool} {op : CanvasOp Float} {reply : Reply}
    (he : t.editFrame v op = some (reply, t')) :
    t'.canvas = (t.canvas.perform (t.shownAt v.frame) op).2.1 ∧
      t'.shownAt v.frame = (t.canvas.perform (t.shownAt v.frame) op).2.2 ∧
      ∀ shapes ∈ t'.frames, shapes ∈ t.frames ∨ shapes = t'.shownAt v.frame := by
  obtain ⟨k, shapes, hk, hshapes, -, rfl⟩ := exists_of_editFrame he
  have hshown : t.shownAt v.frame = shapes := by
    unfold shownAt
    rw [hk, Option.bind_some, hshapes]
    rfl
  have hlt := (List.getElem?_eq_some_iff.1 hshapes).1
  have hnew : shownAt { t with canvas := (t.canvas.perform shapes op).2.1
                               frames := t.frames.set k (t.canvas.perform shapes op).2.2 }
      v.frame = (t.canvas.perform shapes op).2.2 := by
    unfold shownAt
    rw [hk, Option.bind_some, List.getElem?_set_self hlt]
    rfl
  rw [hshown, hnew]
  exact ⟨rfl, rfl, fun shapes' hmem => List.mem_or_eq_of_mem_set hmem⟩

theorem Holds.editFrame {t' : ShapeTool} {op : CanvasOp Float} {reply : Reply}
    (h : t.Holds v.frame) (he : t.editFrame v op = some (reply, t')) : t'.Holds v.frame := by
  obtain ⟨hcanvas, hshown, hframes⟩ := editFrame_eq_some he
  have hheld : t'.canvas.Holds (t'.shownAt v.frame) := by
    rw [hcanvas, hshown]
    exact h.canvas.perform op
  refine ⟨fun shapes hmem => ?_, hheld.grips⟩
  rcases hframes shapes hmem with hmem | rfl
  · exact h.sound shapes hmem
  · exact hheld.sound

theorem Holds.editOutcome (h : t.Holds v.frame) (op : CanvasOp Float) (otherwise : Reply) :
    (t.editOutcome v op otherwise).tool.Holds v.frame := by
  unfold ShapeTool.editOutcome
  split
  · rename_i he
    exact h.editFrame he
  · exact h

/-- An operation that leaves the shapes as they are only changes the canvas. -/
theorem Holds.editShown (h : t.Holds v.frame) (op : CanvasOp Float)
    (hop : (t.canvas.perform (t.shown v) op).2.2 = t.shown v) :
    (t.editShown v op).2.Holds v.frame := by
  refine ⟨h.sound, fun d hd => ?_⟩
  have hgrips := (h.canvas.perform op).grips d hd
  rw [show (t.canvas.perform (t.shownAt v.frame) op).2.2 = t.shownAt v.frame from hop] at hgrips
  exact hgrips

theorem Holds.render (h : t.Holds v.frame) : (t.render v).Holds v.frame :=
  h.editShown .render rfl

/-! ## Stored shapes -/

/-- Stored shapes with which the tool can go on. -/
structure Accepts (t : ShapeTool) (v : View) (data : Json) : Prop where
  boxes : ∀ frames, t.encoding.frames? data = some frames → ∀ shapes ∈ frames, ∀ s ∈ shapes,
    s.kind = .box → s.points.length = 2
  grips : ∀ d, t.canvas.drag = some d → d.Grips ((t.load v data).shown v)

/-- What can be read from stored shapes is as it should be, if boxes have two corners. -/
theorem load_sound (h : ∀ shapes ∈ t.frames, ∀ s ∈ shapes, s.Sound) {data : Json}
    (hboxes : ∀ frames, t.encoding.frames? data = some frames → ∀ shapes ∈ frames, ∀ s ∈ shapes,
      s.kind = .box → s.points.length = 2) :
    ∀ shapes ∈ (t.load v data).frames, ∀ s ∈ shapes, s.Sound := by
  unfold load
  split
  · exact h
  · split
    · exact h
    · rename_i frames hframes
      have hread : ∀ shapes ∈ resized v.frameCount [] frames, ∀ s ∈ shapes, s.Sound := by
        intro shapes hshapes s hs
        rcases mem_resized hshapes with hmem | rfl
        · obtain ⟨hdrawable, hrange⟩ := Encoding.frames?_sound hframes shapes hmem s hs
          exact ⟨⟨of_decide_eq_true hdrawable, hboxes frames hframes shapes hmem s hs⟩, hrange⟩
        · cases hs
      dsimp only
      split <;> exact hread

theorem load_drag (t : ShapeTool) (v : View) (data : Json) :
    (t.load v data).canvas.drag = t.canvas.drag := by
  unfold load
  split
  · rfl
  · split
    · rfl
    · dsimp only
      split <;> rfl

theorem Holds.load (h : t.Holds v.frame) {data : Json} (hdata : t.Accepts v data) :
    (t.load v data).Holds v.frame := by
  refine ⟨load_sound h.sound hdata.boxes, fun d hd => hdata.grips d ?_⟩
  rwa [load_drag] at hd

/-! ## Events and controls -/

/-- An item comes on show with no shapes, while nothing is dragged. -/
theorem holds_itemShown (hd : t.canvas.drag = none) (v : View) (frame : Option Nat) :
    (t.handle v .itemShown).tool.Holds frame := by
  refine holds_of_no_drag (fun shapes hshapes s hs => ?_) hd
  rw [List.eq_of_mem_replicate hshapes] at hs
  cases hs

theorem Holds.imageLoaded (h : t.Holds v.frame) : (t.imageLoaded v).Holds v.frame := by
  unfold ShapeTool.imageLoaded
  cases v.dims with
  | none => exact h.render
  | some dims => exact Holds.render (h.of_eq rfl rfl)

theorem Holds.handle {e : ToolEvent} (h : t.Holds v.frame) (hi : e ≠ .itemShown)
    (hs : ∀ data, e = .stored data → t.Accepts v data) :
    (t.handle v e).tool.Holds v.frame := by
  cases e with
  | itemShown => exact absurd rfl hi
  | stored data => exact h.load (hs data rfl)
  | imageLoaded => exact h.imageLoaded
  | key e => exact h.editOutcome _ _
  | click p => exact h.editOutcome _ _
  | dragMove p => exact h.editOutcome _ _
  | pointerMove p => exact h.editShown (.pointerMove p) rfl
  | dragStart p => exact h.editShown (.dragStart p) rfl
  | dragEnd => exact h.editShown .dragEnd rfl
  | resize width height => exact Holds.render (h.of_eq rfl rfl)
  | render => exact h.render
  | _ => exact h

theorem Holds.setMode (h : t.Holds v.frame) (mode : DrawMode) : (t.setMode v mode).Holds v.frame :=
  have hparams : Holds { t with params := { t.params with mode } } v.frame := h.of_eq rfl rfl
  hparams.editShown (.setMode mode) rfl

theorem Holds.setCategories (h : t.Holds v.frame) (text : String) :
    (t.setCategories v text).Holds v.frame :=
  have hparams : Holds { t with
      params := { t.params with categories := commaItems text }
      canvas := t.canvas.setCategories (commaItems text) } v.frame :=
    h.of_eq rfl (Canvas.setCategories_drag t.canvas _)
  hparams.editShown (.setMode t.params.mode) rfl

theorem Holds.perform {op : ToolOp} {o : Outcome ShapeTool} (h : t.Holds v.frame)
    (ho : Tool.performShape t v op = some o) : o.tool.Holds v.frame := by
  cases op <;> simp only [Tool.performShape, Option.some.injEq, reduceCtorEq] at ho <;> subst ho
  case setMode mode => exact h.setMode mode
  case setCategories text => exact h.setCategories text
  case setCategory category => exact h.editShown (.setCategory category) rfl
  case setSelectedCategory category => exact h.editOutcome _ _
  case setSelectedTrack text => exact h.editOutcome _ _
  case deleteSelection => exact h.editOutcome _ _
  case cancelDraw => exact h.editShown .cancelDraw rfl

/-- A point is dragged when the stored shapes arrive, which are a single box. The next move of
the pointer gives the box the one pixel of the point. -/
theorem load_during_drag :
    let set : AnnotationSet := ⟨1, ⟨2, "", .shape⟩, [], .shape, none⟩
    let v : View :=
      { View.ofSet set with frame := some 0, frameCount := 1, dims := some ⟨100, 100⟩ }
    let drawn : ShapeTool :=
      { ShapeTool.new set .default with frames := [[.point ⟨10, 10⟩]] }.imageLoaded v
    let stored := drawn.encoding.framesToJson [[.box ⟨1, 2⟩ ⟨30, 40⟩]]
    let dragged := (drawn.handle v (.dragStart ⟨10, 10⟩)).tool
    let loaded := (dragged.handle v (.stored stored)).tool
    dragged.Holds v.frame ∧
      loaded.frames = [[.box ⟨1, 2⟩ ⟨30, 40⟩]] ∧
      (loaded.handle v (.dragMove ⟨12, 12⟩)).tool.frames.map
        (fun shapes => shapes.map fun s => (s.kind, s.points.length)) = [[(.box, 1)]] := by
  intro set v drawn stored dragged loaded
  have hpoint : drawn.Holds v.frame := by
    refine Holds.imageLoaded (holds_of_no_drag (fun shapes hshapes s hs => ?_) rfl)
    cases List.mem_singleton.1 hshapes
    cases List.mem_singleton.1 hs
    exact Shape.sound_point ⟨rfl, rfl⟩
  have hdragged : dragged.Holds v.frame := hpoint.handle (by simp) fun data h => by cases h
  exact ⟨hdragged, by decide +kernel, by decide +kernel⟩

end ShapeTool

/-! ## The tool of a session -/

namespace Tool

/-- The shape tool, if it is one. -/
def shape? : Tool → Option ShapeTool
  | .shape t => some t
  | _ => none

/-- The shapes of the tool, if it has any, are as they should be. -/
def ShapesHold (t : Tool) (frame : Option Nat) : Prop := ∀ x, t = .shape x → x.Holds frame

theorem ShapesHold.resetFrame {t : Tool} {frame : Option Nat} (h : t.ShapesHold frame)
    (frame' : Option Nat) : t.resetFrame.ShapesHold frame' := by
  cases t with
  | shape x =>
    intro x' hx'
    cases hx'
    exact (h x rfl).resetFrame frame'
  | _ => exact fun x hx => by cases hx

/-- While no frame is shown, whatever is shown next finds no drag in progress. -/
theorem ShapesHold.of_none {t : Tool} (h : t.ShapesHold none) (frame : Option Nat) :
    t.ShapesHold frame :=
  fun x hx => ShapeTool.holds_of_no_drag (h x hx).sound (h x hx).drag_eq_none

theorem shapesHold_itemShown {t : Tool} (h : t.ShapesHold none) (v : View) (frame : Option Nat) :
    (t.handle v .itemShown).tool.ShapesHold frame := by
  cases t with
  | shape x =>
    intro x' hx'
    cases hx'
    exact ShapeTool.holds_itemShown (h x rfl).drag_eq_none v frame
  | _ => exact fun x hx => by cases hx

theorem ShapesHold.handle {t : Tool} {v : View} {e : ToolEvent} (h : t.ShapesHold v.frame)
    (hi : e ≠ .itemShown) (hs : ∀ data, e = .stored data → ∀ x, t = .shape x → x.Accepts v data) :
    (t.handle v e).tool.ShapesHold v.frame := by
  cases t with
  | shape x =>
    intro x' hx'
    cases hx'
    exact (h x rfl).handle hi fun data hdata => hs data hdata x rfl
  | _ => exact fun x hx => by cases hx

/-- No reaction makes a shape malformed, as long as the tool is told only of stored shapes that
it accepts. -/
theorem Reacts.shapesHold {told : ToolEvent → Prop} {t t' : Tool} {v : View}
    (h : t.Reacts told v t') (ht : t.ShapesHold v.frame) (hshown : ¬ told .itemShown)
    (hstored : ∀ data, told (.stored data) → ∀ x, t = .shape x → x.Accepts v data) :
    t'.ShapesHold v.frame := by
  rcases h with ⟨e, he, rfl⟩ | ⟨op, o, ho, rfl⟩
  · refine ht.handle ?_ fun data hdata => ?_
    · rintro rfl
      exact hshown he
    · subst hdata
      exact hstored data he
  · rcases perform_eq_some ho with ⟨c, -, rfl⟩ | rfl | ⟨s, p, rfl, hp, rfl⟩ | ⟨s, p, rfl, -, rfl⟩ |
      ⟨s, p, rfl, -, rfl⟩ | ⟨s, p, rfl, -, rfl⟩
    · exact ht
    · exact ht.handle (by simp) fun data hdata => by cases hdata
    · intro x hx
      cases hx
      exact (ht s rfl).perform hp
    all_goals exact fun x hx => by cases hx

end Tool

end Labeling
