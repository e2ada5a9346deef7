import Labeling.Canvas.Edit
import Labeling.Proofs.Frames

/-!
# What the canvas keeps of its shapes

The canvas makes and changes shapes in few ways: it adds what was drawn, it gives a shape another
category or track, and a drag gives it other points. A property of shapes that all of these have or
keep (`Canvas.Keeps`) therefore holds of every shape of the list after any operation
(`Canvas.Kept.perform`).

A drag outlives the operations between its moves, and what it will make of the shape at its place
depends on what it remembers. What is known of that (`Drag.Suits`) may refer to the kind of the
shape, which no operation changes, but not to its points.
-/

namespace Labeling

/-! ## The shape that is dragged -/

@[simp] theorem Shape.normalizeBox_kind (s : Shape) : s.normalizeBox.kind = s.kind := by
  unfold normalizeBox
  split <;> rfl

/-- Only a box of two pixels has a rectangle, which is that between them. -/
theorem Shape.boxRect?_eq_some {α : Type} [Scalar α] (s : Shape) {r : Rect α}
    (h : s.boxRect? = some r) :
    ∃ u v, s.kind = .box ∧ s.points = [u, v] ∧ r = .ofCorners u.point v.point := by
  unfold boxRect? at h
  split at h
  · rename_i u v hkind hpoints
    exact ⟨u, v, hkind, hpoints, (Option.some.inj h).symm⟩
  · cases h

theorem Shape.boxRect?_eq_some_iff {α : Type} [Scalar α] {s : Shape} {r : Rect α} :
    s.boxRect? = some r ↔
      ∃ u v, s.kind = .box ∧ s.points = [u, v] ∧ r = .ofCorners u.point v.point := by
  constructor
  · exact s.boxRect?_eq_some
  · rintro ⟨u, v, hbox, hpoints, rfl⟩
    rw [boxRect?, hbox, hpoints]

namespace Drag

variable {α : Type}

/-- The place in the list of what is dragged. -/
def index : Drag α → Nat
  | .move index _ _ => index
  | .handle index _ _ => index

/-- There is a shape at the place of the drag, and what the drag remembers suits its kind. -/
def Suits (G : Drag α → ShapeKind → Prop) (d : Drag α) (shapes : List Shape) : Prop :=
  ∃ s, shapes[d.index]? = some s ∧ G d s.kind

variable {G : Drag α → ShapeKind → Prop} {d d' : Drag α} {shapes : List Shape}

theorem Suits.append (h : d.Suits G shapes) (more : List Shape) : d.Suits G (shapes ++ more) := by
  obtain ⟨s, hs, hk⟩ := h
  refine ⟨s, ?_, hk⟩
  rw [List.getElem?_append_left (List.getElem?_eq_some_iff.1 hs).1, hs]

/-- A shape that keeps its kind suits the drag as before, also when the drag moves on. -/
theorem Suits.modify (h : d.Suits G shapes) (index : Nat) {f : Shape → Shape}
    (hf : ∀ s, (f s).kind = s.kind) (hindex : d'.index = d.index)
    (hmoves : ∀ s, shapes[d.index]? = some s → G d s.kind → G d' s.kind) :
    d'.Suits G (shapes.modify index f) := by
  obtain ⟨s, hs, hk⟩ := h
  unfold Suits
  rw [hindex]
  by_cases hi : index = d.index
  · refine ⟨f s, ?_, by rw [hf]; exact hmoves s hs hk⟩
    rw [hi, List.getElem?_modify_eq, hs]
    rfl
  · exact ⟨s, by rw [List.getElem?_modify_ne _ _ hi, hs], hmoves s hs hk⟩

end Drag

namespace Canvas

/-- What is grabbed is a corner of a box of the list, or a whole shape under the pointer. -/
theorem grabbed?_cases {α : Type} [Scalar α] {c : Canvas α} {shapes : List Shape} {p : Point α}
    {d : Drag α} (h : c.grabbed? shapes p = some d) :
    ∃ s, shapes[d.index]? = some s ∧
      ((∃ index corner r, s.boxRect? = some r ∧ d = .handle index corner r) ∨
        ∃ index, d = .move index p s.points) := by
  unfold grabbed? at h
  split at h
  · rename_i d' hd'
    cases h
    unfold handleAt? at hd'
    simp only [Option.pure_def, Option.bind_eq_bind, Option.bind_eq_some_iff,
      Option.some.injEq] at hd'
    obtain ⟨index, -, s, hs, r, hr, corner, -, rfl⟩ := hd'
    exact ⟨s, hs, .inl ⟨index, corner, r, hr, rfl⟩⟩
  · unfold shapeAt? at h
    simp only [Option.pure_def, Option.bind_eq_bind, Option.bind_eq_some_iff,
      Option.some.injEq] at h
    obtain ⟨index, -, s, hs, rfl⟩ := h
    exact ⟨s, hs, .inr ⟨index, rfl⟩⟩

/-! ## Shapes with a property, and a drag that suits them -/

section Parts

variable {α : Type}

theorem setCategories_drag (c : Canvas α) (categories : List String) :
    (c.setCategories categories).drag = c.drag := by
  unfold setCategories
  dsimp only
  split <;> rfl

/-- All shapes have a property, and the drag in progress, if there is one, suits the shape at its
place. -/
structure Kept (P : Shape → Prop) (G : Drag α → ShapeKind → Prop) (c : Canvas α)
    (shapes : List Shape) : Prop where
  all : ∀ s ∈ shapes, P s
  suits : ∀ d, c.drag = some d → d.Suits G shapes

variable {P : Shape → Prop} {G : Drag α → ShapeKind → Prop} {c c' : Canvas α} {shapes : List Shape}

theorem kept_of_no_drag (hs : ∀ s ∈ shapes, P s) (hd : c.drag = none) : c.Kept P G shapes :=
  ⟨hs, fun d h => by rw [hd] at h; cases h⟩

namespace Kept

theorem of_drag_eq (h : c.Kept P G shapes) (hd : c'.drag = c.drag) : c'.Kept P G shapes :=
  ⟨h.all, fun d hd' => h.suits d (hd ▸ hd')⟩

theorem append (h : c.Kept P G shapes) {s : Shape} (hs : P s) (hd : c'.drag = c.drag) :
    c'.Kept P G (shapes ++ [s]) := by
  refine ⟨fun s' hs' => ?_, fun d hd' => (h.suits d (hd ▸ hd')).append [s]⟩
  rcases List.mem_append.1 hs' with hs' | hs'
  · exact h.all s' hs'
  · cases List.mem_singleton.1 hs'
    exact hs

/-- A shape that is changed keeps its kind, and the drag its place. -/
theorem modify (h : c.Kept P G shapes) {index : Nat} {f : Shape → Shape}
    (hs : ∀ s, shapes[index]? = some s → P (f s)) (hk : ∀ s, (f s).kind = s.kind)
    (hd : ∀ d', c'.drag = some d' → ∃ d, c.drag = some d ∧ d'.index = d.index ∧
      ∀ s, shapes[d.index]? = some s → G d s.kind → G d' s.kind) :
    c'.Kept P G (shapes.modify index f) := by
  refine ⟨fun s' hs' => ?_, fun d' hd' => ?_⟩
  · rcases mem_modify hs' with hs' | ⟨s, hs'', rfl⟩
    · exact h.all s' hs'
    · exact hs s hs''
  · obtain ⟨d, hdrag, hindex, hmoves⟩ := hd d' hd'
    exact (h.suits d hdrag).modify index hk hindex hmoves

theorem modifySelected (h : c.Kept P G shapes) {f : Shape → Shape}
    (hs : ∀ s : Shape, P s → P (f s)) (hk : ∀ s, (f s).kind = s.kind) :
    c.Kept P G (c.modifySelected shapes f).2 := by
  unfold Canvas.modifySelected
  split
  · exact h
  · split
    · exact h.modify (fun s hs' => hs s (h.all s (List.mem_of_getElem? hs'))) hk
        fun d hd => ⟨d, hd, rfl, fun _ _ hg => hg⟩
    · exact h

theorem setCategories (h : c.Kept P G shapes) (categories : List String) :
    (c.setCategories categories).Kept P G shapes :=
  h.of_drag_eq (setCategories_drag c categories)

theorem setCategory (h : c.Kept P G shapes) (category : String) :
    (c.setCategory category).2.Kept P G shapes := by
  unfold Canvas.setCategory
  split <;> exact h.of_drag_eq rfl

end Kept

end Parts

/-! ## Properties that the operations keep -/

variable {α : Type} [Scalar α]

/-- The shape that a handle leaves when its rectangle has become `r`. -/
def resized (s : Shape) (r : Rect α) : Shape :=
  { s with points := [r.topLeft.pixel, r.bottomRight.pixel] }.normalizeBox

/-- Every way in which the canvas makes or changes a shape leaves it with a property `P`, where a
drag and the kind of the shape that it drags are in a relation `G`. -/
structure Keeps (P : Shape → Prop) (G : Drag α → ShapeKind → Prop) : Prop where
  drawn : ∀ (d : Provisional α) (category : String), P (d.shape category)
  point : ∀ (p : Point α) (category : String), P ((Shape.point p.pixel).withCategory category)
  categorized : ∀ {s : Shape} (category : String), P s → P (s.withCategory category)
  tracked : ∀ {s : Shape} (text : String), P s → P (s.setTrackText text)
  /-- A whole shape is grabbed. -/
  grabbed : ∀ {s : Shape} (index : Nat) (p : Point α), P s → G (.move index p s.points) s.kind
  /-- A corner of a box is grabbed. -/
  cornered : ∀ {s : Shape} {r : Rect α} (index : Nat) (corner : Corner), P s →
    s.boxRect? = some r → G (.handle index corner r) s.kind
  moved : ∀ {s : Shape} {index : Nat} {origin : Point α} {grabbed : List Pixel} (dx dy : α), P s →
    G (.move index origin grabbed) s.kind → P { s with points := movedPoints grabbed dx dy }
  pulled : ∀ {s : Shape} {index : Nat} {corner : Corner} {rect : Rect α} (p : Point α), P s →
    G (.handle index corner rect) s.kind → P (resized s (pulled rect corner p).1) ∧
      G (.handle index (pulled rect corner p).2 (pulled rect corner p).1) s.kind

/-! ## The operations -/

variable {P : Shape → Prop} {G : Drag α → ShapeKind → Prop} {c : Canvas α} {shapes : List Shape}

namespace Kept

theorem render (h : c.Kept P G shapes) : (c.render shapes).Kept P G shapes := h.of_drag_eq rfl

theorem cancelDraw (h : c.Kept P G shapes) : (c.cancelDraw shapes).2.Kept P G shapes := by
  unfold Canvas.cancelDraw
  split <;> exact h.of_drag_eq rfl

theorem dragEnd (h : c.Kept P G shapes) : (c.dragEnd shapes).Kept P G shapes := by
  unfold Canvas.dragEnd
  split
  · exact kept_of_no_drag h.all rfl
  · exact h

theorem pointerMove (h : c.Kept P G shapes) (pos : Point α) :
    (c.pointerMove shapes pos).Kept P G shapes := by
  unfold Canvas.pointerMove
  split
  · cases c.drawing <;> exact h.of_drag_eq rfl
  · exact h

/-- With the selected shape any drag is given up. -/
theorem deleteSelection (h : c.Kept P G shapes) :
    (c.deleteSelection shapes).2.1.Kept P G (c.deleteSelection shapes).2.2 := by
  unfold Canvas.deleteSelection
  split
  · exact h
  · dsimp only
    split
    · exact h.of_drag_eq rfl
    · exact kept_of_no_drag (fun s hs => h.all s (List.mem_of_mem_eraseIdx hs)) rfl

theorem handleKey (h : c.Kept P G shapes) (e : KeyEvent) :
    (c.handleKey shapes e).2.1.Kept P G (c.handleKey shapes e).2.2 := by
  unfold Canvas.handleKey
  split
  · exact h
  · split
    · exact h.cancelDraw
    · split
      · exact h.deleteSelection
      · exact h

/-! ### The operations that make shapes or change their points -/

variable (keeps : Keeps P G)
include keeps

theorem begin (h : c.Kept P G shapes) (p : Point α) :
    (c.begin shapes p).1.Kept P G (c.begin shapes p).2 := by
  unfold Canvas.begin
  dsimp only
  split
  · exact h.of_drag_eq rfl
  · exact h.of_drag_eq rfl
  · exact h.append (keeps.point p c.category) rfl
  · exact h

theorem click (h : c.Kept P G shapes) (pos : Point α) :
    (c.click shapes pos).1.Kept P G (c.click shapes pos).2 := by
  unfold Canvas.click
  split
  · cases c.drawing with
    | some d =>
      dsimp only
      exact h.append (keeps.drawn _ _) rfl
    | none =>
      dsimp only
      split
      · exact h.of_drag_eq rfl
      · split
        · exact h.of_drag_eq rfl
        · exact (h.begin keeps (c.stage.toNatural pos)).render
  · exact h

/-- A drag begins at a shape of the list, from which it takes what it remembers. -/
theorem dragStart (h : c.Kept P G shapes) (pos : Point α) :
    (c.dragStart shapes pos).2.Kept P G shapes := by
  unfold Canvas.dragStart
  split
  · exact h
  · split
    · rename_i d hd
      refine ⟨h.all, fun d' hd' => ?_⟩
      cases hd'
      obtain ⟨s, hindex, ⟨index, corner, r, hr, rfl⟩ | ⟨index, rfl⟩⟩ := grabbed?_cases hd
      · exact ⟨s, hindex, keeps.cornered index corner (h.all s (List.mem_of_getElem? hindex)) hr⟩
      · exact ⟨s, hindex, keeps.grabbed index _ (h.all s (List.mem_of_getElem? hindex))⟩
    · exact h

/-- A move of the pointer changes the points of the shape that the drag suits. -/
theorem dragMove (h : c.Kept P G shapes) (pos : Point α) :
    (c.dragMove shapes pos).1.Kept P G (c.dragMove shapes pos).2 := by
  unfold Canvas.dragMove
  dsimp only
  split
  · exact h
  · rename_i index origin grabbed hd
    obtain ⟨s, hs, hg⟩ := h.suits _ hd
    dsimp only
    refine h.modify (fun s' hs' => ?_) (fun _ => rfl)
      fun d' hd' => ⟨d', hd', rfl, fun _ _ hg => hg⟩
    obtain rfl : s = s' := Option.some.inj (hs.symm.trans hs')
    exact keeps.moved _ _ (h.all s (List.mem_of_getElem? hs)) hg
  · rename_i index corner rect hd
    obtain ⟨s, hs, hg⟩ := h.suits _ hd
    dsimp only
    have hpulled := keeps.pulled (c.stage.toNatural pos) (h.all s (List.mem_of_getElem? hs)) hg
    refine h.modify (fun s' hs' => ?_) (fun s' => Shape.normalizeBox_kind _) fun d' hd' => ?_
    · obtain rfl : s = s' := Option.some.inj (hs.symm.trans hs')
      exact hpulled.1
    · cases hd'
      refine ⟨_, hd, rfl, fun s' hs' _ => ?_⟩
      obtain rfl : s = s' := Option.some.inj (hs.symm.trans hs')
      exact hpulled.2

/-- What every change of a shape keeps is kept by every operation of the canvas. -/
theorem perform (h : c.Kept P G shapes) (op : CanvasOp α) :
    (c.perform shapes op).2.1.Kept P G (c.perform shapes op).2.2 := by
  cases op with
  | setMode mode => exact kept_of_no_drag h.all rfl
  | setCategories categories => exact h.setCategories categories
  | setCategory category => exact h.setCategory category
  | attach natural => exact h.of_drag_eq rfl
  | resize width height => exact h.of_drag_eq rfl
  | resetFrame => exact kept_of_no_drag h.all rfl
  | render => exact h.render
  | click p => exact h.click keeps p
  | pointerMove p => exact h.pointerMove p
  | dragStart p => exact h.dragStart keeps p
  | dragMove p => exact h.dragMove keeps p
  | dragEnd => exact h.dragEnd
  | cancelDraw => exact h.cancelDraw
  | deleteSelection => exact h.deleteSelection
  | key e => exact h.handleKey e
  | setSelectedCategory category =>
    show c.Kept P G (c.setSelectedCategory shapes category).2
    unfold Canvas.setSelectedCategory
    split
    · exact h.modifySelected (fun s hs => keeps.categorized category hs) fun _ => rfl
    · exact h
  | setSelectedTrack text =>
    exact h.modifySelected (fun s hs => keeps.tracked text hs) fun _ => rfl

end Kept

end Canvas

end Labeling
