import Labeling.Proofs.Canvas.Coherent
import Labeling.Proofs.Canvas.Drawn

/-!
# A shape takes two clicks

Boxes and lines are drawn with two clicks. Between them the canvas is drafting (`Canvas.Drafting`):
the first point is settled in the pixels of the image, and what would else be done to the shapes is
not done, as nothing is selected and nothing is dragged. So the second click adds the shape between
both points, wherever else the pointer went and whatever lies there, and however the image was
resized in the meantime (`Canvas.two_clicks`).

When drawing is given up instead, no trace of it is left. What the canvas is without a drawing
(`Canvas.undrawn`) is the same as if the first click had not been made, and it alone decides what
becomes of the shapes from then on.
-/

namespace Labeling

namespace DrawMode

/-- The shape between two pixels that is drawn in a mode with two clicks. -/
def between : DrawMode → Pixel → Pixel → Shape
  | .line, p, q => .line p q
  | _, p, q => .box p q

end DrawMode

namespace Provisional

variable {α : Type}

/-- The point at which a shape was begun. -/
def anchor : Provisional α → Point α
  | .box anchor _ => anchor
  | .line start _ => start

@[simp] theorem anchor_follow (d : Provisional α) (p : Point α) :
    (d.follow p).anchor = d.anchor := by
  cases d <;> rfl

/-- A shape is finished between the point at which it was begun and that of the pointer. -/
theorem shape_follow [Scalar α] (d : Provisional α) (p : Point α) (category : String) :
    (d.follow p).shape category =
      (d.mode.between d.anchor.pixel p.pixel).withCategory category := by
  cases d <;> rfl

end Provisional

namespace CanvasOp

variable {α : Type}

/-- A key is released that is bound to giving up what is drawn. -/
def Cancels (bindings : KeyBindings) (e : KeyEvent) : Prop :=
  e.isPress = false ∧ e.inField = false ∧ e.key = bindings.cancelDraw

/-- Drawing goes on after an operation. -/
def Continues (bindings : KeyBindings) : CanvasOp α → Prop
  | .click _ => False
  | .setMode _ => False
  | .resetFrame => False
  | .cancelDraw => False
  | .key e => ¬ Cancels bindings e
  | _ => True

/-- Drawing is given up by an operation. -/
def GivesUp (bindings : KeyBindings) : CanvasOp α → Prop
  | .setMode _ => True
  | .resetFrame => True
  | .cancelDraw => True
  | .key e => Cancels bindings e
  | _ => False

/-- An operation that has the same effect while a shape is being drawn as else. -/
def setsUp : CanvasOp α → Bool
  | .setCategories _ => true
  | .setCategory _ => true
  | .attach _ => true
  | .resize _ _ => true
  | _ => false

end CanvasOp

namespace Canvas

variable {α : Type}

/-- A shape is being drawn from a point, and nothing else is going on. -/
structure Drafting (c : Canvas α) (mode : DrawMode) (anchor : Point α) (bindings : KeyBindings) :
    Prop where
  drawing : ∃ d, c.drawing = some d ∧ d.mode = mode ∧ d.anchor = anchor
  attached : c.stage.isAttached = true
  selected : c.selected = none
  drag : c.drag = none
  bindings_eq : c.bindings = bindings

namespace Drafting

variable {c c' : Canvas α} {mode : DrawMode} {anchor : Point α} {bindings : KeyBindings}

theorem isDrawing (h : c.Drafting mode anchor bindings) : c.isDrawing = true := by
  obtain ⟨d, hd, -, -⟩ := h.drawing
  simp [Canvas.isDrawing, hd]

/-- What a draft consists of is left alone. -/
theorem of_eq (h : c.Drafting mode anchor bindings) (hd : c'.drawing = c.drawing)
    (ha : c'.stage.isAttached = true) (hs : c'.selected = none) (hg : c'.drag = c.drag)
    (hb : c'.bindings = c.bindings) : c'.Drafting mode anchor bindings where
  drawing := hd ▸ h.drawing
  attached := ha
  selected := hs
  drag := hg.trans h.drag
  bindings_eq := hb.trans h.bindings_eq

end Drafting

variable [Scalar α] {c c' : Canvas α} {shapes : List Shape}

/-! ## What does not matter -/

/-- What a canvas is apart from the pointer and what it shows. -/
def core (c : Canvas α) : Canvas α := { c with hovered := none, scene := .none }

theorem core_render (c : Canvas α) (shapes : List Shape) :
    (c.render shapes).core = { c.core with selected := validIndex shapes c.selected } := rfl

section Core

variable (c : Canvas α)

@[simp] theorem core_mode : c.core.mode = c.mode := rfl

@[simp] theorem core_stage : c.core.stage = c.stage := rfl

@[simp] theorem core_selected : c.core.selected = c.selected := rfl

@[simp] theorem core_drawing : c.core.drawing = c.drawing := rfl

@[simp] theorem core_drag : c.core.drag = c.drag := rfl

@[simp] theorem core_category : c.core.category = c.category := rfl

@[simp] theorem core_categories : c.core.categories = c.categories := rfl

@[simp] theorem core_bindings : c.core.bindings = c.bindings := rfl

end Core

theorem core_click (c : Canvas α) (shapes : List Shape) (p : Point α) :
    (c.core.click shapes p).1.core = (c.click shapes p).1.core ∧
      (c.core.click shapes p).2 = (c.click shapes p).2 := by
  by_cases ha : c.stage.isAttached = true
  · cases hd : c.drawing with
    | some d => simp [click, ha, hd]; rfl
    | none =>
      cases hh : hitShape? shapes (c.stage.toNatural p) with
      | some index => simp [click, ha, hd, hh]; rfl
      | none =>
        by_cases hs : c.selected.isSome = true
        · simp [click, ha, hd, hh, hs]; rfl
        · cases hm : c.mode <;> simp [click, ha, hd, hh, hs, begin, hm] <;> rfl
  · simp [click, ha]; rfl

theorem core_deleteSelection (c : Canvas α) (shapes : List Shape) :
    (c.core.deleteSelection shapes).2.1.core = (c.deleteSelection shapes).2.1.core ∧
      (c.core.deleteSelection shapes).2.2 = (c.deleteSelection shapes).2.2 := by
  cases hs : c.selected with
  | none => simp [deleteSelection, hs]; rfl
  | some index => cases hx : shapes[index]? <;> simp [deleteSelection, hs, hx] <;> rfl

theorem core_cancelDraw (c : Canvas α) (shapes : List Shape) :
    (c.core.cancelDraw shapes).2.core = (c.cancelDraw shapes).2.core := by
  cases hd : c.drawing <;> simp [cancelDraw, isDrawing, hd] <;> rfl

/-- Neither the pointer nor what is shown has an effect on anything else. -/
theorem core_perform (c : Canvas α) (shapes : List Shape) (op : CanvasOp α) :
    (c.core.perform shapes op).2.1.core = (c.perform shapes op).2.1.core ∧
      (c.core.perform shapes op).2.2 = (c.perform shapes op).2.2 := by
  cases op with
  | click p => exact core_click c shapes p
  | pointerMove p =>
    refine ⟨?_, rfl⟩
    by_cases ha : c.stage.isAttached = true
    · cases hd : c.drawing <;> simp [perform, pointerMove, ha, hd] <;> rfl
    · simp [perform, pointerMove, ha]; rfl
  | dragStart p =>
    refine ⟨?_, rfl⟩
    have hg : c.core.grabbed? shapes (c.stage.toNatural p) =
        c.grabbed? shapes (c.stage.toNatural p) := rfl
    by_cases ha : c.stage.isAttached = true
    · cases hd : c.drawing with
      | some d => simp [perform, dragStart, isDrawing, ha, hd]; rfl
      | none =>
        cases h : c.grabbed? shapes (c.stage.toNatural p) <;>
          simp [perform, dragStart, isDrawing, ha, hd, hg, h] <;> rfl
    · simp [perform, dragStart, ha]; rfl
  | dragMove p =>
    cases hd : c.drag with
    | none => simp [perform, dragMove, hd]; rfl
    | some d => cases d <;> simp [perform, dragMove, hd] <;> rfl
  | dragEnd =>
    refine ⟨?_, rfl⟩
    cases hd : c.drag <;> simp [perform, dragEnd, hd] <;> rfl
  | cancelDraw => exact ⟨core_cancelDraw c shapes, rfl⟩
  | deleteSelection => exact core_deleteSelection c shapes
  | key e =>
    by_cases he : (e.isPress || e.inField) = true
    · simp [perform, handleKey, he]; rfl
    · by_cases hc : e.key = c.bindings.cancelDraw
      · simpa [perform, handleKey, he, hc] using core_cancelDraw c shapes
      · by_cases hr : e.key = c.bindings.deleteSelection
        · have hne : c.bindings.deleteSelection ≠ c.bindings.cancelDraw := hr ▸ hc
          simpa [perform, handleKey, he, hr, hne] using core_deleteSelection c shapes
        · simp [perform, handleKey, he, hc, hr]; rfl
  | setCategories categories =>
    refine ⟨?_, rfl⟩
    simp [perform, setCategories_eq]
    rfl
  | setCategory category =>
    refine ⟨?_, rfl⟩
    simp only [perform, setCategory_eq]
    rfl
  | setSelectedCategory category => exact ⟨rfl, rfl⟩
  | _ => exact ⟨rfl, rfl⟩

theorem perform_of_core_eq (h : c.core = c'.core) (shapes : List Shape) (op : CanvasOp α) :
    (c.perform shapes op).2.1.core = (c'.perform shapes op).2.1.core ∧
      (c.perform shapes op).2.2 = (c'.perform shapes op).2.2 := by
  have hc := core_perform c shapes op
  have hc' := core_perform c' shapes op
  rw [h] at hc
  exact ⟨hc.1.symm.trans hc'.1, hc.2.symm.trans hc'.2⟩

/-- Two canvases that differ in nothing else make the same of the shapes. -/
theorem performAll_of_core_eq {ops : List (CanvasOp α)} :
    ∀ {c c' : Canvas α} {shapes : List Shape}, c.core = c'.core →
      (c.performAll shapes ops).2 = (c'.performAll shapes ops).2 := by
  induction ops with
  | nil => exact fun _ => rfl
  | cons op rest ih =>
    intro c c' shapes h
    obtain ⟨hcore, hshapes⟩ := perform_of_core_eq h shapes op
    rw [performAll_cons, performAll_cons, hshapes]
    exact ih hcore

/-! ## Between two clicks -/

/-- What a canvas is apart from the shape being drawn, the pointer and what it shows. -/
def undrawn (c : Canvas α) : Canvas α := { c.core with drawing := none }

theorem undrawn_of_not_drawing (h : c.drawing = none) : c.undrawn = c.core := by
  simp only [undrawn, core, h]

variable {mode : DrawMode} {anchor : Point α} {bindings : KeyBindings}

namespace Drafting

theorem render (h : c.Drafting mode anchor bindings) (shapes : List Shape) :
    (c.render shapes).Drafting mode anchor bindings ∧ (c.render shapes).undrawn = c.undrawn := by
  have hs : validIndex shapes c.selected = c.selected := by rw [h.selected, validIndex_none]
  refine ⟨h.of_eq rfl h.attached (hs.trans h.selected) rfl rfl, ?_⟩
  simp only [undrawn, core_render, hs]
  rfl

theorem pointerMove (h : c.Drafting mode anchor bindings) (shapes : List Shape) (p : Point α) :
    (c.pointerMove shapes p).Drafting mode anchor bindings ∧
      (c.pointerMove shapes p).undrawn = c.undrawn := by
  obtain ⟨d, hd, hmode, hanchor⟩ := h.drawing
  have hmoved : c.pointerMove shapes p =
      ({ c with drawing := some (d.follow (c.stage.toNatural p)) } : Canvas α).render shapes := by
    simp [Canvas.pointerMove, h.attached, hd]
  have hdraft : ({ c with drawing := some (d.follow (c.stage.toNatural p)) } :
      Canvas α).Drafting mode anchor bindings :=
    ⟨⟨_, rfl, (d.mode_follow _).trans hmode, (d.anchor_follow _).trans hanchor⟩, h.attached,
      h.selected, h.drag, h.bindings_eq⟩
  rw [hmoved]
  exact ⟨(hdraft.render shapes).1, (hdraft.render shapes).2.trans rfl⟩

/-- An operation that sets up the canvas does so with the draft in place. -/
theorem perform_setsUp (h : c.Drafting mode anchor bindings) {op : CanvasOp α}
    (hop : op.setsUp = true) (shapes : List Shape) :
    (c.perform shapes op).2.1.Drafting mode anchor bindings ∧
      (c.undrawn.perform shapes op).2.1.core = (c.perform shapes op).2.1.undrawn ∧
      (c.perform shapes op).2.2 = shapes := by
  have hstage : ∀ stage : Stage α, stage.natural.isSome = true → stage.refit.isAttached = true := by
    intro stage hn
    rwa [Stage.isAttached, Stage.refit_natural]
  cases op with
  | setCategories categories =>
    simp only [Canvas.perform, setCategories_eq]
    exact ⟨h.of_eq rfl h.attached h.selected rfl rfl, rfl, trivial⟩
  | setCategory category =>
    simp only [Canvas.perform, setCategory_eq]
    exact ⟨h.of_eq rfl h.attached h.selected rfl rfl, rfl, trivial⟩
  | attach natural => exact ⟨h.of_eq rfl (hstage _ rfl) h.selected rfl rfl, rfl, rfl⟩
  | resize width height => exact ⟨h.of_eq rfl (hstage _ h.attached) h.selected rfl rfl, rfl, rfl⟩
  | _ => cases hop

/-- No other operation after which drawing goes on does anything but to move the second point. -/
theorem perform_quiet (h : c.Drafting mode anchor bindings) {op : CanvasOp α}
    (hop : op.Continues bindings) (hsets : op.setsUp = false) (shapes : List Shape) :
    (c.perform shapes op).2.1.Drafting mode anchor bindings ∧
      (c.perform shapes op).2.1.undrawn = c.undrawn ∧ (c.perform shapes op).2.2 = shapes := by
  have hsame : ∀ {r : Reply × Canvas α × List Shape}, r.2 = (c, shapes) →
      r.2.1.Drafting mode anchor bindings ∧ r.2.1.undrawn = c.undrawn ∧ r.2.2 = shapes := by
    intro r hr
    rw [hr]
    exact ⟨h, rfl, rfl⟩
  have hdelete : c.deleteSelection shapes = (none, c, shapes) := by
    simp [Canvas.deleteSelection, h.selected]
  cases op with
  | render => exact ⟨(h.render shapes).1, (h.render shapes).2, rfl⟩
  | pointerMove p => exact ⟨(h.pointerMove shapes p).1, (h.pointerMove shapes p).2, rfl⟩
  | dragStart p => exact hsame (by simp [Canvas.perform, dragStart, h.isDrawing])
  | dragMove p => exact hsame (by simp [Canvas.perform, dragMove, h.drag])
  | dragEnd => exact hsame (by simp [Canvas.perform, dragEnd, h.drag])
  | deleteSelection => exact hsame (by simp [Canvas.perform, hdelete])
  | key e =>
    refine hsame ?_
    by_cases he : (e.isPress || e.inField) = true
    · simp [Canvas.perform, handleKey, he]
    · have hkey : e.key ≠ c.bindings.cancelDraw := by
        rw [h.bindings_eq]
        intro hkey
        refine hop ⟨?_, ?_, hkey⟩ <;> simp_all
      simp [Canvas.perform, handleKey, he, hkey, hdelete]
  | setSelectedCategory category =>
    exact hsame (by simp [Canvas.perform, setSelectedCategory, modifySelected, h.selected])
  | setSelectedTrack text =>
    exact hsame (by simp [Canvas.perform, setSelectedTrack, modifySelected, h.selected])
  | setCategories _ | setCategory _ | attach _ | resize _ _ => cases hsets
  | click _ | setMode _ | resetFrame | cancelDraw => exact hop.elim

/-- Next to a canvas that drafts, another one that does not is set up in the same way. In the end
they differ in the draft, and neither has changed the shapes. -/
theorem performAll {ops : List (CanvasOp α)} (hops : ∀ op ∈ ops, op.Continues bindings)
    (shapes : List Shape) :
    ∀ {c c' : Canvas α}, c.Drafting mode anchor bindings → c'.core = c.undrawn →
      (c.performAll shapes ops).1.Drafting mode anchor bindings ∧
        (c.performAll shapes ops).2 = shapes ∧
        (c'.performAll shapes (ops.filter CanvasOp.setsUp)).1.core =
          (c.performAll shapes ops).1.undrawn ∧
        (c'.performAll shapes (ops.filter CanvasOp.setsUp)).2 = shapes := by
  induction ops with
  | nil => exact fun h hc => ⟨h, rfl, hc, rfl⟩
  | cons op rest ih =>
    intro c c' h hc
    have ih := @ih fun o ho => hops o (List.mem_cons_of_mem _ ho)
    rw [performAll_cons, List.filter_cons]
    cases hsets : op.setsUp with
    | true =>
      obtain ⟨hdraft, hundrawn, hshapes⟩ := h.perform_setsUp hsets shapes
      have hcore' : c'.core = c.undrawn.core := hc
      obtain ⟨hcore, hsame⟩ := perform_of_core_eq hcore' shapes op
      have hkept : (c.undrawn.perform shapes op).2.2 = shapes := by
        cases op <;> first | rfl | cases hsets
      rw [if_pos rfl, performAll_cons, hshapes, hsame, hkept]
      exact ih hdraft (hcore.trans hundrawn)
    | false =>
      obtain ⟨hdraft, hundrawn, hshapes⟩ :=
        h.perform_quiet (hops op (List.mem_cons_self ..)) hsets shapes
      rw [if_neg Bool.false_ne_true, hshapes]
      exact ih hdraft (hc.trans hundrawn.symm)

/-- Drawing is given up: what is left is the canvas without the draft, after the same operation. -/
theorem perform_givesUp (h : c.Drafting mode anchor bindings) {op : CanvasOp α}
    (hop : op.GivesUp bindings) (shapes : List Shape) :
    (c.perform shapes op).2.2 = shapes ∧ (c.perform shapes op).2.1.drawing = none ∧
      (c.undrawn.perform shapes op).2.2 = shapes ∧
      (c.undrawn.perform shapes op).2.1.core = (c.perform shapes op).2.1.core := by
  have hcancel : c.cancelDraw shapes =
      (true, ({ c with drawing := none } : Canvas α).render shapes) := by
    simp [cancelDraw, h.isDrawing]
  have hnone : c.undrawn.cancelDraw shapes = (false, c.undrawn) := rfl
  have hcore : (({ c with drawing := none } : Canvas α).render shapes).core = c.undrawn := by
    rw [core_render]
    show ({ c.undrawn with selected := validIndex shapes c.selected } : Canvas α) = c.undrawn
    rw [h.selected, validIndex_none, ← h.selected]
    rfl
  cases op with
  | setMode mode => exact ⟨rfl, rfl, rfl, rfl⟩
  | resetFrame => exact ⟨rfl, rfl, rfl, rfl⟩
  | cancelDraw =>
    simp only [Canvas.perform, hcancel, hnone]
    exact ⟨trivial, rfl, trivial, hcore.symm⟩
  | key e =>
    obtain ⟨hpress, hfield, hkey⟩ := hop
    have hkey : e.key = c.bindings.cancelDraw := hkey.trans (congrArg _ h.bindings_eq.symm)
    have hkey' : e.key = c.undrawn.bindings.cancelDraw := hkey
    simp only [Canvas.perform, handleKey, hpress, hfield, Bool.or_self, Bool.false_eq_true,
      if_false, if_pos hkey, if_pos hkey', hcancel, hnone]
    exact ⟨trivial, rfl, trivial, hcore.symm⟩
  | _ => exact hop.elim

end Drafting

/-! ## The two clicks -/

/-- In a mode with two clicks a shape is begun, and nothing is added yet. -/
theorem begin_of_isTwoPhase (hmode : c.mode.isTwoPhase = true) (shapes : List Shape) (p : Point α) :
    ∃ d : Provisional α, d.mode = c.mode ∧ d.anchor = p ∧
      c.begin shapes p = ({ c with drawing := some d }, shapes) := by
  unfold begin
  dsimp only
  split
  · rename_i hbox
    exact ⟨.box p _, hbox.symm, rfl, rfl⟩
  · rename_i hline
    exact ⟨.line p _, hline.symm, rfl, rfl⟩
  all_goals
    rename_i hm
    simp [hm, DrawMode.isTwoPhase] at hmode

/-- The first click. -/
theorem drafting_click (hmode : c.mode.isTwoPhase = true) (hattached : c.stage.isAttached = true)
    (hselected : c.selected = none) (hdrawing : c.drawing = none) (hdrag : c.drag = none)
    {p : Point α} (hmiss : hitShape? shapes (c.stage.toNatural p) = none) :
    (c.click shapes p).1.Drafting c.mode (c.stage.toNatural p) c.bindings ∧
      (c.click shapes p).2 = shapes ∧ c.core = (c.click shapes p).1.undrawn := by
  obtain ⟨d, hd, hanchor, hbegun⟩ := begin_of_isTwoPhase hmode shapes (c.stage.toNatural p)
  have hclick : c.click shapes p =
      (({ c with drawing := some d } : Canvas α).render shapes, shapes) := by
    simp [click, hattached, hdrawing, hmiss, hselected, hbegun]
  have hdraft : ({ c with drawing := some d } : Canvas α).Drafting c.mode (c.stage.toNatural p)
      c.bindings := ⟨⟨d, rfl, hd, hanchor⟩, hattached, hselected, hdrag, rfl⟩
  obtain ⟨hrendered, hundrawn⟩ := hdraft.render shapes
  rw [hclick]
  refine ⟨hrendered, rfl, ?_⟩
  rw [hundrawn, ← undrawn_of_not_drawing hdrawing]
  rfl

/-- The second click. -/
theorem Drafting.click (h : c.Drafting mode anchor bindings) (shapes : List Shape) (p : Point α) :
    (c.click shapes p).2 = shapes ++
        [(mode.between anchor.pixel (c.stage.toNatural p).pixel).withCategory c.category] ∧
      (c.click shapes p).1.drawing = none ∧ (c.click shapes p).1.selected = none := by
  obtain ⟨d, hd, rfl, rfl⟩ := h.drawing
  simp [Canvas.click, h.attached, hd, d.shape_follow, Canvas.render, h.selected, validIndex_none]

/-- A shape takes two clicks. Whatever happens between them without giving it up, the second click
adds the shape between both, of which the first was settled when it was made, in the category that
is set at the second. When drawing is given up instead, the shapes are what they were, and become
what they would have become without the first click. -/
theorem two_clicks (hmode : c.mode.isTwoPhase = true) (hattached : c.stage.isAttached = true)
    (hselected : c.selected = none) (hdrawing : c.drawing = none) (hdrag : c.drag = none)
    {a : Point α} (hmiss : hitShape? shapes (c.stage.toNatural a) = none)
    {ops : List (CanvasOp α)} (hops : ∀ op ∈ ops, op.Continues c.bindings) :
    (∀ b, let before := (c.performAll shapes (.click a :: ops)).1
      let after := c.performAll shapes (.click a :: ops ++ [.click b])
      after.2 = shapes ++
          [(c.mode.between (c.stage.toNatural a).pixel
            (before.stage.toNatural b).pixel).withCategory before.category] ∧
        after.1.drawing = none ∧ after.1.selected = none) ∧
      ∀ stop : CanvasOp α, stop.GivesUp c.bindings →
        (c.performAll shapes (.click a :: ops ++ [stop])).2 = shapes ∧
        (c.performAll shapes (.click a :: ops ++ [stop])).1.drawing = none ∧
        ∀ later, (c.performAll shapes (.click a :: ops ++ stop :: later)).2 =
          (c.performAll shapes (ops.filter CanvasOp.setsUp ++ stop :: later)).2 := by
  obtain ⟨hdraft, hshapes, hcore⟩ :=
    drafting_click hmode hattached hselected hdrawing hdrag hmiss
  obtain ⟨hbefore, hkept, hapart, hkept'⟩ := hdraft.performAll hops shapes hcore
  have hrun : c.performAll shapes (.click a :: ops) =
      (c.click shapes a).1.performAll shapes ops := by
    rw [performAll_cons]
    show (c.click shapes a).1.performAll (c.click shapes a).2 ops = _
    rw [hshapes]
  refine ⟨fun b => ?_, fun stop hstop => ?_⟩
  · dsimp only
    rw [performAll_append, hrun, hkept]
    exact hbefore.click shapes b
  · obtain ⟨hleft, hnone, hleft', hsame⟩ := hbefore.perform_givesUp hstop shapes
    refine ⟨?_, ?_, fun later => ?_⟩
    · rw [performAll_append, hrun, hkept]
      exact hleft
    · rw [performAll_append, hrun, hkept]
      exact hnone
    · rw [performAll_append, performAll_append, hrun, hkept, hkept', performAll_cons,
        performAll_cons, hleft]
      have hapart' : (c.performAll shapes (ops.filter CanvasOp.setsUp)).1.core =
          ((c.click shapes a).1.performAll shapes ops).1.undrawn.core := hapart
      obtain ⟨hcore', hsame'⟩ := perform_of_core_eq hapart' shapes stop
      rw [hsame', hleft']
      exact (performAll_of_core_eq (hcore'.trans hsame)).symm

/-- A box is begun, and the pointer goes over a shape that it can neither grab nor remove. Then the
image is shown twice as large and a category is set, and the second click makes the box. -/
theorem two_clicks_resized :
    let c : Canvas Float := (new .box ["car"] .default).attach ⟨100, 100⟩
    let shapes : List Shape := [.point ⟨50, 50⟩]
    let ops : List (CanvasOp Float) := [.pointerMove ⟨50, 50⟩, .dragStart ⟨50, 50⟩,
      .key (.release .delete), .resize 200 200, .setCategory "car"]
    (c.performAll shapes (.click ⟨10, 10⟩ :: ops ++ [.click ⟨100, 100⟩])).2 =
      shapes ++ [(Shape.box (⟨10, 10⟩ : Point Float).pixel
        (⟨50, 50⟩ : Point Float).pixel).withCategory "car"] := by
  intro c shapes ops
  have hops : ∀ op ∈ ops, op.Continues c.bindings := by
    simp [ops, CanvasOp.Continues, CanvasOp.Cancels, c, new, attach, KeyBindings.default,
      KeyEvent.release]
  have hmiss : hitShape? shapes (c.stage.toNatural ⟨10, 10⟩) = none := by decide +kernel
  have hpixel : ∀ p q : Point Float, p.x = q.x → p.y = q.y → p.pixel = q.pixel := by
    intro p q hx hy
    rw [Point.pixel, hx, hy]
    rfl
  have hfirst : (c.stage.toNatural ⟨10, 10⟩).pixel = (⟨10, 10⟩ : Point Float).pixel :=
    hpixel _ _ (by decide +kernel) (by decide +kernel)
  have hsecond : ((c.performAll shapes (.click ⟨10, 10⟩ :: ops)).1.stage.toNatural
      ⟨100, 100⟩).pixel = (⟨50, 50⟩ : Point Float).pixel :=
    hpixel _ _ (by decide +kernel) (by decide +kernel)
  have hcategory : (c.performAll shapes (.click ⟨10, 10⟩ :: ops)).1.category = "car" := by
    decide +kernel
  have hadded := ((two_clicks (c := c) rfl rfl rfl rfl rfl hmiss hops).1 ⟨100, 100⟩).1
  rw [hfirst, hsecond, hcategory] at hadded
  exact hadded

end Canvas

end Labeling
