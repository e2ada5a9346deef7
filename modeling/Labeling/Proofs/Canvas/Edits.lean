import Labeling.Proofs.Canvas.Coherent

/-!
# What an operation does to the shapes

An operation of the canvas touches one shape at most (`Canvas.Edits`). A click adds one at the end
of the list, of the kind that the mode creates; the removal of the selection takes that one out, and
no operation but these changes the length of the list. What else happens to a shape happens to the
dragged or the selected one at its place: a drag only changes its points, and the controls of the
selection only its category or its track.

Which kind a click creates depends on the shape being drawn, not on the mode. That both agree is
an invariant of its own (`Canvas.DrawsIn`), as it has to hold also while the list of shapes is
replaced and nothing else of the canvas fits to it.
-/

namespace Labeling

/-- The mode that an operation leads to. -/
def CanvasOp.modeAfter {α : Type} (mode : DrawMode) : CanvasOp α → DrawMode
  | .setMode mode => mode
  | _ => mode

namespace Canvas

variable {α : Type}

/-! ## Changes of one shape -/

/-- The selected shape is changed, if there is one. -/
theorem modifySelected_cases (c : Canvas α) (shapes : List Shape) (f : Shape → Shape) :
    c.modifySelected shapes f = (false, shapes) ∨
      ∃ index s, c.selected = some index ∧ shapes[index]? = some s ∧
        c.modifySelected shapes f = (true, shapes.set index (f s)) := by
  unfold Canvas.modifySelected
  split
  · exact Or.inl rfl
  · rename_i index hindex
    split
    · rename_i hlt
      have hs := List.getElem?_eq_getElem hlt
      exact Or.inr ⟨index, _, hindex, hs, by rw [modify_eq_set_of_getElem? f hs]⟩
    · exact Or.inl rfl

/-! ## The mode -/

/-- The canvas is in a mode, and what is being drawn is drawn in it. -/
structure DrawsIn (c : Canvas α) (mode : DrawMode) : Prop where
  mode_eq : c.mode = mode
  drawing : ∀ d, c.drawing = some d → d.mode = mode

namespace DrawsIn

variable {c c' : Canvas α} {mode : DrawMode}

/-- Only the mode and the shape being drawn matter, and to give up the shape is no change. -/
theorem of_eq (h : c.DrawsIn mode) (hm : c'.mode = c.mode)
    (hd : c'.drawing = c.drawing ∨ c'.drawing = none) : c'.DrawsIn mode := by
  refine ⟨hm.trans h.mode_eq, fun d hdrawing => ?_⟩
  rcases hd with hd | hd
  · exact h.drawing d (hd ▸ hdrawing)
  · rw [hd] at hdrawing
    cases hdrawing

theorem of_drawing (h : c.DrawsIn mode) {d : Provisional α} (hm : c'.mode = c.mode)
    (hd : c'.drawing = some d) (hmode : d.mode = mode) : c'.DrawsIn mode := by
  refine ⟨hm.trans h.mode_eq, fun d' hd' => ?_⟩
  rw [hd] at hd'
  cases hd'
  exact hmode

end DrawsIn

theorem drawsIn_new (mode : DrawMode) (categories : List String) (bindings : KeyBindings)
    [Scalar α] : (new mode categories bindings : Canvas α).DrawsIn mode :=
  ⟨rfl, fun d h => by cases h⟩

variable [Scalar α] {c : Canvas α} {shapes : List Shape} {mode : DrawMode}

theorem DrawsIn.begin (h : c.DrawsIn mode) (p : Point α) :
    (c.begin shapes p).1.DrawsIn mode := by
  unfold Canvas.begin
  dsimp only
  split
  · rename_i hmode
    exact h.of_drawing rfl rfl (hmode.symm.trans h.mode_eq)
  · rename_i hmode
    exact h.of_drawing rfl rfl (hmode.symm.trans h.mode_eq)
  · exact h
  · exact h

theorem DrawsIn.render (h : c.DrawsIn mode) (shapes : List Shape) :
    (c.render shapes).DrawsIn mode :=
  h.of_eq rfl (.inl rfl)

theorem DrawsIn.click (h : c.DrawsIn mode) (p : Point α) : (c.click shapes p).1.DrawsIn mode := by
  unfold Canvas.click
  split
  · refine DrawsIn.render ?_ _
    split
    · exact h.of_eq rfl (.inr rfl)
    · split
      · exact h.of_eq rfl (.inl rfl)
      · split
        · exact h.of_eq rfl (.inl rfl)
        · exact h.begin _
  · exact h

theorem DrawsIn.pointerMove (h : c.DrawsIn mode) (p : Point α) :
    (c.pointerMove shapes p).DrawsIn mode := by
  unfold Canvas.pointerMove
  split
  · refine DrawsIn.render ?_ _
    split
    · rename_i d hd
      exact h.of_drawing rfl rfl ((d.mode_follow _).trans (h.drawing d hd))
    · exact h.of_eq rfl (.inl rfl)
  · exact h

theorem DrawsIn.deleteSelection (h : c.DrawsIn mode) :
    (c.deleteSelection shapes).2.1.DrawsIn mode := by
  unfold Canvas.deleteSelection
  split
  · exact h
  · dsimp only
    split
    · exact h.of_eq rfl (.inl rfl)
    · exact h.of_eq rfl (.inl rfl)

theorem DrawsIn.cancelDraw (h : c.DrawsIn mode) : (c.cancelDraw shapes).2.DrawsIn mode := by
  unfold Canvas.cancelDraw
  split
  · exact h.of_eq rfl (.inr rfl)
  · exact h

/-- No operation but the one for it changes the mode, and what is drawn is drawn in the mode. -/
theorem DrawsIn.perform (h : c.DrawsIn mode) (shapes : List Shape) (op : CanvasOp α) :
    (c.perform shapes op).2.1.DrawsIn (op.modeAfter mode) := by
  cases op with
  | setMode mode' => exact ⟨rfl, fun d hd => by cases hd⟩
  | setCategories categories =>
    simp only [Canvas.perform, setCategories_eq]
    exact h.of_eq rfl (.inl rfl)
  | setCategory category =>
    simp only [Canvas.perform, setCategory_eq]
    exact h.of_eq rfl (.inl rfl)
  | attach natural => exact h.of_eq rfl (.inl rfl)
  | resize width height => exact h.of_eq rfl (.inl rfl)
  | resetFrame => exact h.of_eq rfl (.inr rfl)
  | render => exact h.render shapes
  | click p => exact h.click p
  | pointerMove p => exact h.pointerMove p
  | dragStart p =>
    show (c.dragStart shapes p).2.DrawsIn mode
    unfold Canvas.dragStart
    split
    · exact h
    · split
      · exact h.of_eq rfl (.inl rfl)
      · exact h
  | dragMove p =>
    show (c.dragMove shapes p).1.DrawsIn mode
    unfold Canvas.dragMove
    dsimp only
    split
    · exact h
    · exact h.of_eq rfl (.inl rfl)
    · exact h.of_eq rfl (.inl rfl)
  | dragEnd =>
    show (c.dragEnd shapes).DrawsIn mode
    unfold Canvas.dragEnd
    split
    · exact h.of_eq rfl (.inl rfl)
    · exact h
  | cancelDraw => exact h.cancelDraw
  | deleteSelection => exact h.deleteSelection
  | key e =>
    show (c.handleKey shapes e).2.1.DrawsIn mode
    unfold Canvas.handleKey
    split
    · exact h
    · split
      · exact h.cancelDraw
      · split
        · exact h.deleteSelection
        · exact h
  | setSelectedCategory category => exact h
  | setSelectedTrack text => exact h

/-! ## The shapes -/

/-- What an operation answers, and what it made of the shapes of a frame. -/
inductive Edits (c : Canvas α) (shapes : List Shape) : CanvasOp α → Reply → List Shape → Prop where
  /-- The shapes stay, and none is given back. -/
  | kept {op : CanvasOp α} {reply : Reply} (noShape : ∀ s, reply ≠ .shape (some s)) :
      Edits c shapes op reply shapes
  /-- A click adds a shape, of which no more is given than its points. -/
  | added {p : Point α} {s : Shape} (kind : c.mode.creates? = some s.kind)
      (category : s.category = c.category) (track : s.track = none)
      (attributes : s.attributes = []) :
      Edits c shapes (.click p) .nothing (shapes ++ [s])
  /-- The selected shape is removed, and given back. -/
  | removed {index : Nat} {s : Shape} (selected : c.selected = some index)
      (found : shapes[index]? = some s) :
      Edits c shapes .deleteSelection (.shape (some s)) (shapes.eraseIdx index)
  /-- The selected shape is removed by the key that is bound to it. -/
  | removedByKey {e : KeyEvent} {index : Nat} {s : Shape} (release : e.isPress = false)
      (outside : e.inField = false) (key : e.key = c.bindings.deleteSelection)
      (selected : c.selected = some index) (found : shapes[index]? = some s) :
      Edits c shapes (.key e) (.flag true) (shapes.eraseIdx index)
  /-- The dragged shape gets other points. -/
  | dragged {p : Point α} {d : Drag α} {s : Shape} (points : List Pixel) (drag : c.drag = some d)
      (found : shapes[d.index]? = some s) :
      Edits c shapes (.dragMove p) .nothing (shapes.set d.index { s with points })
  /-- The selected shape gets another category. -/
  | categorized {category : String} {index : Nat} {s : Shape} (selected : c.selected = some index)
      (found : shapes[index]? = some s) :
      Edits c shapes (.setSelectedCategory category) (.flag true)
        (shapes.set index { s with category })
  /-- The selected shape gets another track. -/
  | tracked {text : String} {index : Nat} {s : Shape} (track : Option Int)
      (selected : c.selected = some index) (found : shapes[index]? = some s) :
      Edits c shapes (.setSelectedTrack text) (.flag true) (shapes.set index { s with track })

/-- The shape that a drawing comes to is of the kind that its mode creates. -/
theorem creates?_mode (d : Provisional α) (category : String) :
    d.mode.creates? = some (d.shape category).kind := by
  cases d <;> rfl

theorem edits_click (h : c.DrawsIn mode) (p : Point α) :
    c.Edits shapes (.click p) .nothing (c.click shapes p).2 := by
  have hkept : c.Edits shapes (.click p) .nothing shapes := .kept fun s hs => by cases hs
  unfold Canvas.click
  split
  · dsimp only
    split
    · rename_i d hd
      have hmode : c.mode = (d.follow (c.stage.toNatural p)).mode := by
        rw [h.mode_eq, d.mode_follow, h.drawing d hd]
      refine .added (by rw [hmode, creates?_mode]) ?_ ?_ ?_ <;>
        cases d <;> rfl
    · split
      · exact hkept
      · split
        · exact hkept
        · unfold Canvas.begin
          dsimp only
          split
          · exact hkept
          · exact hkept
          · rename_i hmode
            refine .added ?_ rfl rfl rfl
            rw [hmode]
            rfl
          · exact hkept
  · exact hkept

theorem edits_dragMove (c : Canvas α) (shapes : List Shape) (p : Point α) :
    c.Edits shapes (.dragMove p) .nothing (c.dragMove shapes p).2 := by
  have hkept : c.Edits shapes (.dragMove p) .nothing shapes := .kept fun s hs => by cases hs
  have hdragged : ∀ {d : Drag α} (f : Shape → Shape), c.drag = some d →
      (∀ s, ∃ points, f s = { s with points }) →
        c.Edits shapes (.dragMove p) .nothing (shapes.modify d.index f) := by
    intro d f hd hf
    cases hs : shapes[d.index]? with
    | none =>
      rw [List.modify_eq_self (List.getElem?_eq_none_iff.1 hs)]
      exact hkept
    | some s =>
      obtain ⟨points, hpoints⟩ := hf s
      rw [modify_eq_set_of_getElem? f hs, hpoints]
      exact .dragged points hd hs
  unfold Canvas.dragMove
  dsimp only
  split
  · exact hkept
  · rename_i index origin grabbed hd
    exact hdragged _ hd fun s => ⟨_, rfl⟩
  · rename_i index corner rect hd
    refine hdragged _ hd fun s => ?_
    unfold Shape.normalizeBox
    split <;> exact ⟨_, rfl⟩

/-- The selection is removed by the operation for it, or stays. -/
theorem deleteSelection_cases (c : Canvas α) (shapes : List Shape) :
    ((c.deleteSelection shapes).1 = none ∧ (c.deleteSelection shapes).2.2 = shapes) ∨
      ∃ index s, c.selected = some index ∧ shapes[index]? = some s ∧
        (c.deleteSelection shapes).1 = some s ∧
        (c.deleteSelection shapes).2.2 = shapes.eraseIdx index := by
  unfold Canvas.deleteSelection
  split
  · exact Or.inl ⟨rfl, rfl⟩
  · rename_i index hindex
    split
    · exact Or.inl ⟨rfl, rfl⟩
    · rename_i s hs
      exact Or.inr ⟨index, s, hindex, hs, rfl, rfl⟩

theorem edits_deleteSelection (c : Canvas α) (shapes : List Shape) :
    c.Edits shapes .deleteSelection (.shape (c.deleteSelection shapes).1)
      (c.deleteSelection shapes).2.2 := by
  rcases deleteSelection_cases c shapes with ⟨hnone, hshapes⟩ | ⟨index, s, hsel, hs, hsome, hshapes⟩
  · rw [hnone, hshapes]
    exact .kept fun s hs => by cases hs
  · rw [hsome, hshapes]
    exact .removed hsel hs

theorem edits_handleKey (c : Canvas α) (shapes : List Shape) (e : KeyEvent) :
    c.Edits shapes (.key e) (.flag (c.handleKey shapes e).1) (c.handleKey shapes e).2.2 := by
  have hkept : ∀ done, c.Edits shapes (.key e) (.flag done) shapes :=
    fun done => .kept fun s hs => by cases hs
  unfold Canvas.handleKey
  split
  · exact hkept _
  · rename_i hfree
    split
    · exact hkept _
    · split
      · rename_i hkey
        dsimp only
        rcases deleteSelection_cases c shapes with
          ⟨hnone, hshapes⟩ | ⟨index, s, hsel, hs, hsome, hshapes⟩
        · rw [hshapes]
          exact hkept _
        · rw [hsome, hshapes]
          simp only [Bool.or_eq_true, not_or, Bool.not_eq_true] at hfree
          exact .removedByKey hfree.1 hfree.2 hkey hsel hs
      · exact hkept _

/-- An operation touches one shape at most. -/
theorem DrawsIn.edits (h : c.DrawsIn mode) (shapes : List Shape) (op : CanvasOp α) :
    c.Edits shapes op (c.perform shapes op).1 (c.perform shapes op).2.2 := by
  cases op with
  | click p => exact edits_click h p
  | dragMove p => exact edits_dragMove c shapes p
  | deleteSelection => exact edits_deleteSelection c shapes
  | key e => exact edits_handleKey c shapes e
  | setSelectedCategory category =>
    show c.Edits shapes _ (.flag (c.setSelectedCategory shapes category).1)
      (c.setSelectedCategory shapes category).2
    unfold Canvas.setSelectedCategory
    split
    · rcases modifySelected_cases c shapes (·.withCategory category) with
        hcase | ⟨index, s, hsel, hs, hcase⟩
      · rw [hcase]
        exact .kept fun s hs => by cases hs
      · rw [hcase]
        exact .categorized hsel hs
    · exact .kept fun s hs => by cases hs
  | setSelectedTrack text =>
    show c.Edits shapes _ (.flag (c.setSelectedTrack shapes text).1)
      (c.setSelectedTrack shapes text).2
    unfold Canvas.setSelectedTrack
    rcases modifySelected_cases c shapes (·.setTrackText text) with
      hcase | ⟨index, s, hsel, hs, hcase⟩
    · rw [hcase]
      exact .kept fun s hs => by cases hs
    · rw [hcase]
      exact .tracked _ hsel hs
  | _ => exact .kept fun s hs => by cases hs

end Canvas

end Labeling
