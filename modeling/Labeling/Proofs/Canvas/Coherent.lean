import Labeling.Proofs.Canvas.Grip

/-!
# The canvas as a state machine

A canvas has a mode and a category for new shapes, and it may have a selected shape, a shape
under the pointer, a shape being drawn and a drag in progress. The operations reset these parts
in different combinations: a change of the mode keeps the selection, the removal of a shape
forgets the pointer and the drag, a new frame forgets everything. `Canvas.Coherent` says how the
parts fit together and to the list of shapes.

* `Canvas.Coherent.perform`: every operation keeps a canvas coherent with its list;
* `Canvas.coherent_performAll`: so a canvas is coherent with its list after any sequence of
  operations, as long as no one else changes the list.

Drawing forgets a selection and a pointer that the list has no place for. An operation that
draws at its end therefore owes only the other parts, which are `Canvas.Consistent`.
-/

namespace Labeling

/-- The mode in which a shape is drawn. -/
def Provisional.mode {α : Type} : Provisional α → DrawMode
  | .box _ _ => .box
  | .line _ _ => .line

@[simp] theorem Provisional.mode_follow {α : Type} [Scalar α] (d : Provisional α) (p : Point α) :
    (d.follow p).mode = d.mode := by
  cases d <;> rfl

namespace Canvas

theorem lt_of_validIndex {shapes : List Shape} {index : Option Nat} {i : Nat}
    (h : validIndex shapes index = some i) : i < shapes.length :=
  of_decide_eq_true (Option.filter_eq_some_iff.1 h).2

theorem validIndex_none (shapes : List Shape) : validIndex shapes none = none := rfl

/-- A drag begins at a shape of the list. -/
theorem index_lt_of_grabbed? {α : Type} [Scalar α] {c : Canvas α} {shapes : List Shape}
    {p : Point α} {d : Drag α} (h : c.grabbed? shapes p = some d) : d.index < shapes.length := by
  obtain ⟨s, hs, -⟩ := grabbed?_cases h
  exact (List.getElem?_eq_some_iff.1 hs).1

/-! ## Coherence -/

section Coherence

variable {α : Type}

/-- The parts of a canvas fit together, and the drag to a list of shapes. -/
structure Consistent (c : Canvas α) (shapes : List Shape) : Prop where
  /-- While a shape is being drawn, none is selected. -/
  exclusive : ∀ d, c.drawing = some d → c.selected = none
  /-- A shape is drawn in its own mode. -/
  mode : ∀ d, c.drawing = some d → c.mode = d.mode
  /-- The category is empty or one of those that can be given. -/
  category : c.category = "" ∨ c.category ∈ c.categories
  /-- What is dragged is one of the shapes. -/
  dragged : ∀ d, c.drag = some d → d.index < shapes.length

/-- The parts of a canvas fit together and to a list of shapes. -/
structure Coherent (c : Canvas α) (shapes : List Shape) : Prop extends c.Consistent shapes where
  /-- What is selected is one of the shapes. -/
  selected : ∀ i, c.selected = some i → i < shapes.length
  /-- What is under the pointer is one of the shapes. -/
  hovered : ∀ i, c.hovered = some i → i < shapes.length

variable {c : Canvas α} {shapes shapes' : List Shape}

theorem knowsCategory_iff (c : Canvas α) (category : String) :
    c.knowsCategory category = true ↔ category = "" ∨ category ∈ c.categories := by
  unfold knowsCategory
  rw [Bool.or_eq_true, String.isEmpty_iff, List.contains_iff_mem]

/-- A canvas without a drag is consistent with one list as with another. -/
theorem Consistent.of_no_drag (h : c.Consistent shapes) (hd : c.drag = none)
    (shapes' : List Shape) : c.Consistent shapes' :=
  ⟨h.exclusive, h.mode, h.category, fun d hd' => by rw [hd] at hd'; cases hd'⟩

/-- A list that does not get shorter keeps its places. -/
theorem Consistent.of_length_le (h : c.Consistent shapes)
    (hlen : shapes.length ≤ shapes'.length) : c.Consistent shapes' :=
  ⟨h.exclusive, h.mode, h.category, fun d hd => Nat.lt_of_lt_of_le (h.dragged d hd) hlen⟩

theorem Coherent.of_length_le (h : c.Coherent shapes) (hlen : shapes.length ≤ shapes'.length) :
    c.Coherent shapes' :=
  ⟨h.toConsistent.of_length_le hlen, fun i hi => Nat.lt_of_lt_of_le (h.selected i hi) hlen,
    fun i hi => Nat.lt_of_lt_of_le (h.hovered i hi) hlen⟩

/-! ### Changes of a single part -/

/-- Nothing excludes a selection while no shape is being drawn. -/
theorem Consistent.select (h : c.Consistent shapes) (hd : c.drawing = none)
    (index : Option Nat) : ({ c with selected := index } : Canvas α).Consistent shapes where
  exclusive := fun d hd' => absurd (hd.symm.trans hd') (by simp)
  mode := h.mode
  category := h.category
  dragged := h.dragged

theorem Consistent.deselect (h : c.Consistent shapes) :
    ({ c with selected := none } : Canvas α).Consistent shapes :=
  ⟨fun _ _ => rfl, h.mode, h.category, h.dragged⟩

theorem Consistent.hover (h : c.Consistent shapes) (index : Option Nat) :
    ({ c with hovered := index } : Canvas α).Consistent shapes :=
  ⟨h.exclusive, h.mode, h.category, h.dragged⟩

/-- A shape may be drawn in its mode while none is selected. -/
theorem Consistent.draw (h : c.Consistent shapes) {d : Provisional α} (hs : c.selected = none)
    (hm : c.mode = d.mode) : ({ c with drawing := some d } : Canvas α).Consistent shapes where
  exclusive := fun _ _ => hs
  mode := fun d' hd => by
    cases hd
    exact hm
  category := h.category
  dragged := h.dragged

theorem Consistent.stopDrawing (h : c.Consistent shapes) :
    ({ c with drawing := none } : Canvas α).Consistent shapes where
  exclusive := fun d hd => by cases hd
  mode := fun d hd => by cases hd
  category := h.category
  dragged := h.dragged

theorem Consistent.grab (h : c.Consistent shapes) {drag : Option (Drag α)}
    (hd : ∀ d, drag = some d → d.index < shapes.length) :
    ({ c with drag } : Canvas α).Consistent shapes :=
  ⟨h.exclusive, h.mode, h.category, hd⟩

theorem Consistent.letGo (h : c.Consistent shapes) :
    ({ c with drag := none } : Canvas α).Consistent shapes :=
  h.grab fun d hd => by cases hd

/-- The stage plays no part. -/
theorem Coherent.setStage (h : c.Coherent shapes) (stage : Stage α) :
    ({ c with stage } : Canvas α).Coherent shapes := { h with }

/-! ### Categories and attributes -/

/-- The category of new shapes stays if it can still be given. -/
theorem setCategories_eq (c : Canvas α) (categories : List String) :
    c.setCategories categories = { c with
      categories
      category := if c.category = "" ∨ c.category ∈ categories then c.category else "" } := by
  by_cases h : c.category = "" ∨ c.category ∈ categories <;> simp [setCategories, knowsCategory, h]

theorem setCategory_eq (c : Canvas α) (category : String) :
    (c.setCategory category).2 =
      { c with category := if c.knowsCategory category then category else c.category } := by
  by_cases h : c.knowsCategory category = true <;> simp [setCategory, h]

theorem Coherent.setCategories (h : c.Coherent shapes) (categories : List String) :
    (c.setCategories categories).Coherent shapes := by
  unfold Canvas.setCategories
  dsimp only
  split
  · rename_i hknown
    exact { h with category := (knowsCategory_iff _ _).1 hknown }
  · exact { h with category := .inl rfl }

theorem Coherent.setCategory (h : c.Coherent shapes) (category : String) :
    (c.setCategory category).2.Coherent shapes := by
  unfold Canvas.setCategory
  split
  · rename_i hknown
    exact { h with category := (knowsCategory_iff c category).1 hknown }
  · exact h

theorem length_modifySelected (c : Canvas α) (shapes : List Shape) (f : Shape → Shape) :
    (c.modifySelected shapes f).2.length = shapes.length := by
  unfold modifySelected
  split
  · rfl
  · split
    · exact List.length_modify ..
    · rfl

theorem Coherent.modifySelected (h : c.Coherent shapes) (f : Shape → Shape) :
    c.Coherent (c.modifySelected shapes f).2 :=
  h.of_length_le (Nat.le_of_eq (c.length_modifySelected shapes f).symm)

theorem Coherent.setSelectedCategory (h : c.Coherent shapes) (category : String) :
    c.Coherent (c.setSelectedCategory shapes category).2 := by
  unfold Canvas.setSelectedCategory
  split
  · exact h.modifySelected _
  · exact h

end Coherence

variable {α : Type} [Scalar α] {c : Canvas α} {shapes : List Shape}

/-- A new canvas has no place in any list. -/
theorem coherent_new (mode : DrawMode) (categories : List String) (bindings : KeyBindings)
    (shapes : List Shape) : (new mode categories bindings : Canvas α).Coherent shapes where
  exclusive := fun d h => by cases h
  mode := fun d h => by cases h
  category := .inl rfl
  dragged := fun d h => by cases h
  selected := fun i h => by cases h
  hovered := fun i h => by cases h

/-- Drawing forgets the places that the list does not have. -/
theorem Consistent.render (h : c.Consistent shapes) : (c.render shapes).Coherent shapes where
  exclusive := fun d hd => by
    show validIndex shapes c.selected = none
    rw [h.exclusive d hd, validIndex_none]
  mode := h.mode
  category := h.category
  dragged := h.dragged
  selected := fun _ hi => lt_of_validIndex hi
  hovered := fun _ hi => lt_of_validIndex hi

/-! ## Mode and frame -/

/-- A change of the mode keeps the selection, but nothing is being drawn any more. -/
theorem Consistent.setMode (h : c.Consistent shapes) (mode : DrawMode) :
    (c.setMode mode shapes).Coherent shapes := by
  have hcleared : ({ c with mode }.clearInteraction : Canvas α).Consistent shapes :=
    { exclusive := fun d hd => by cases hd
      mode := fun d hd => by cases hd
      category := h.category
      dragged := fun d hd => by cases hd }
  exact hcleared.render

theorem Consistent.resetFrame (h : c.Consistent shapes) : c.resetFrame.Coherent shapes where
  exclusive := fun d hd => by cases hd
  mode := fun d hd => by cases hd
  category := h.category
  dragged := fun d hd => by cases hd
  selected := fun i hi => by cases hi
  hovered := fun i hi => by cases hi

/-! ## The pointer -/

/-- What a click begins is drawn in the mode of the canvas. -/
theorem Consistent.begin (h : c.Consistent shapes) (hs : c.selected = none) (p : Point α) :
    (c.begin shapes p).1.Consistent (c.begin shapes p).2 := by
  unfold Canvas.begin
  dsimp only
  split
  · rename_i hmode
    exact h.draw hs hmode
  · rename_i hmode
    exact h.draw hs hmode
  · exact h.of_length_le (List.prefix_append _ _).length_le
  · exact h

/-- A click selects only when nothing is being drawn, and begins to draw only when nothing is
selected. -/
theorem Coherent.click (h : c.Coherent shapes) (pos : Point α) :
    (c.click shapes pos).1.Coherent (c.click shapes pos).2 := by
  unfold Canvas.click
  split
  · dsimp only
    split
    · exact (h.stopDrawing.of_length_le (List.prefix_append _ _).length_le).render
    · rename_i hdrawing
      split
      · exact (h.select hdrawing _).render
      · split
        · exact h.deselect.render
        · rename_i hselected
          exact (h.begin (Option.not_isSome_iff_eq_none.1 hselected) _).render
  · exact h

theorem Coherent.pointerMove (h : c.Coherent shapes) (pos : Point α) :
    (c.pointerMove shapes pos).Coherent shapes := by
  unfold Canvas.pointerMove
  split
  · dsimp only
    split
    · rename_i d hdrawing
      have hmode : c.mode = (d.follow (c.stage.toNatural pos)).mode :=
        (h.mode d hdrawing).trans (d.mode_follow _).symm
      exact (h.draw (h.exclusive d hdrawing) hmode).render
    · exact (h.hover _).render
  · exact h

theorem Coherent.dragStart (h : c.Coherent shapes) (pos : Point α) :
    (c.dragStart shapes pos).2.Coherent shapes := by
  unfold Canvas.dragStart
  split
  · exact h
  · split
    · rename_i d hd
      refine (h.grab fun d' hd' => ?_).render
      cases hd'
      exact index_lt_of_grabbed? hd
    · exact h

/-- A drag stays at its place, also when it changes corners. -/
theorem Coherent.dragMove (h : c.Coherent shapes) (pos : Point α) :
    (c.dragMove shapes pos).1.Coherent (c.dragMove shapes pos).2 := by
  unfold Canvas.dragMove
  dsimp only
  split
  · exact h
  · dsimp only
    exact (h.of_length_le (Nat.le_of_eq (List.length_modify ..).symm)).render
  · rename_i index corner rect hdrag
    dsimp only
    have hlt : index < shapes.length := h.dragged (.handle index corner rect) hdrag
    refine Consistent.render ?_
    refine (h.grab fun d hd => ?_).of_length_le (Nat.le_of_eq (List.length_modify ..).symm)
    cases hd
    exact hlt

theorem Coherent.dragEnd (h : c.Coherent shapes) : (c.dragEnd shapes).Coherent shapes := by
  unfold Canvas.dragEnd
  split
  · exact h.letGo.render
  · exact h

/-! ## Giving up and removing shapes -/

theorem Coherent.cancelDraw (h : c.Coherent shapes) :
    (c.cancelDraw shapes).2.Coherent shapes := by
  unfold Canvas.cancelDraw
  split
  · exact h.stopDrawing.render
  · exact h

/-- The list gets shorter, but with the removed shape the pointer and the drag are forgotten. -/
theorem Coherent.deleteSelection (h : c.Coherent shapes) :
    (c.deleteSelection shapes).2.1.Coherent (c.deleteSelection shapes).2.2 := by
  unfold Canvas.deleteSelection
  split
  · exact h
  · rename_i index hselected
    dsimp only
    split
    · rename_i hnone
      have hlt := h.selected index hselected
      exact absurd hlt (Nat.not_lt.2 (List.getElem?_eq_none_iff.1 hnone))
    · have hfree : ({ c with selected := none, hovered := none, drag := none } :
          Canvas α).Consistent shapes :=
        (h.deselect.hover none).letGo
      exact (hfree.of_no_drag rfl _).render

theorem Coherent.handleKey (h : c.Coherent shapes) (e : KeyEvent) :
    (c.handleKey shapes e).2.1.Coherent (c.handleKey shapes e).2.2 := by
  unfold Canvas.handleKey
  split
  · exact h
  · split
    · exact h.cancelDraw
    · split
      · exact h.deleteSelection
      · exact h

/-! ## Steps and runs -/

/-- Every operation keeps the canvas coherent with the shapes of the frame. -/
theorem Coherent.perform (h : c.Coherent shapes) (op : CanvasOp α) :
    (c.perform shapes op).2.1.Coherent (c.perform shapes op).2.2 := by
  cases op with
  | setMode mode => exact h.setMode mode
  | setCategories categories => exact h.setCategories categories
  | setCategory category => exact h.setCategory category
  | attach natural => exact h.setStage _
  | resize width height => exact h.setStage _
  | resetFrame => exact h.resetFrame
  | render => exact h.render
  | click p => exact h.click p
  | pointerMove p => exact h.pointerMove p
  | dragStart p => exact h.dragStart p
  | dragMove p => exact h.dragMove p
  | dragEnd => exact h.dragEnd
  | cancelDraw => exact h.cancelDraw
  | deleteSelection => exact h.deleteSelection
  | key e => exact h.handleKey e
  | setSelectedCategory category => exact h.setSelectedCategory category
  | setSelectedTrack text => exact h.modifySelected _

/-- A run of the canvas over the shapes of a frame. -/
def performAll (c : Canvas α) (shapes : List Shape) (ops : List (CanvasOp α)) :
    Canvas α × List Shape :=
  ops.foldl (fun state op => (state.1.perform state.2 op).2) (c, shapes)

theorem performAll_cons (c : Canvas α) (shapes : List Shape) (op : CanvasOp α)
    (ops : List (CanvasOp α)) :
    c.performAll shapes (op :: ops) =
      (c.perform shapes op).2.1.performAll (c.perform shapes op).2.2 ops := rfl

theorem performAll_append (c : Canvas α) (shapes : List Shape) (ops ops' : List (CanvasOp α)) :
    c.performAll shapes (ops ++ ops') =
      (c.performAll shapes ops).1.performAll (c.performAll shapes ops).2 ops' := by
  simp [performAll, List.foldl_append]

/-- What every change of a shape keeps is kept by a run of the canvas. -/
theorem Kept.performAll {P : Shape → Prop} {G : Drag α → ShapeKind → Prop} (keeps : Keeps P G)
    (ops : List (CanvasOp α)) : ∀ {c : Canvas α} {shapes : List Shape}, c.Kept P G shapes →
      (c.performAll shapes ops).1.Kept P G (c.performAll shapes ops).2 := by
  induction ops with
  | nil => exact fun h => h
  | cons op ops ih =>
    intro c shapes h
    rw [performAll_cons]
    exact ih (h.perform keeps op)

theorem Coherent.performAll {ops : List (CanvasOp α)} :
    ∀ {c : Canvas α} {shapes : List Shape}, c.Coherent shapes →
      (c.performAll shapes ops).1.Coherent (c.performAll shapes ops).2 := by
  induction ops with
  | nil => exact fun h => h
  | cons op ops ih =>
    intro c shapes h
    rw [performAll_cons]
    exact ih (h.perform op)

/-- A canvas is coherent with the list that it alone changes, from the start and after any
sequence of operations: what is being drawn and what is selected exclude each other, a shape is
drawn in its own mode, the category can be given, and the shapes that are selected, under the
pointer and dragged have their places in the list. -/
theorem coherent_performAll (mode : DrawMode) (categories : List String) (bindings : KeyBindings)
    (shapes : List Shape) (ops : List (CanvasOp α)) :
    let state := (new mode categories bindings : Canvas α).performAll shapes ops
    state.1.Coherent state.2 :=
  (coherent_new mode categories bindings shapes).performAll

end Canvas

end Labeling
