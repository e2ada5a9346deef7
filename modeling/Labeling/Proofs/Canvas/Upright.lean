import Labeling.Proofs.Canvas.Coherent
import Labeling.Proofs.Geometry.Exact

/-!
# Boxes stay upright

The first pixel of a box is its top-left corner and the second its bottom-right one. Three
operations write the pixels of a box, and they keep this for different reasons:

* the second click and the drag of a corner put the pixels in order once they are whole numbers,
  whatever the arithmetic before that came to;
* the move of a whole box does not look at the order. It adds the same offset to the pixels that were
  grabbed and drops the fractions, and rounding on the way may bring pixels together but not past
  each other. That it is a box which had its pixels in order when it was grabbed is an invariant of
  the drag, which may be older than other shapes of the list.

The arithmetic of coordinates is only assumed to be monotone (`Scalar.KeepsOrder`). So are
floating-point numbers, also where sums overflow: besides the order of numbers, what is no number
counts as above negative and below positive infinity, and is compared with nothing else.
-/

namespace Labeling

/-- The conversions of coordinates from and to integers and the addition of a fixed offset keep an
order of coordinates. -/
structure Scalar.KeepsOrder (α : Type) [Scalar α] [Preorder α] : Prop where
  ofInt : Monotone (Scalar.ofInt : Int → α)
  add : ∀ d : α, Monotone fun a : α => a + d
  toInt : Monotone (Scalar.toInt : α → Int)

theorem Scalar.keepsOrder_real : Scalar.KeepsOrder ℝ where
  ofInt := fun _ _ h => Int.cast_le.2 h
  add := fun _ _ _ h => add_le_add_left h _
  toInt := Scalar.toInt_mono

/-! ## Pixels in order -/

/-- Two pixels of which the first is above the second and to its left, or level with it. -/
def Diagonal (points : List Pixel) : Prop :=
  ∃ p q : Pixel, points = [p, q] ∧ p.x ≤ q.x ∧ p.y ≤ q.y

/-- A box has exactly two pixels, its top-left and its bottom-right corner. -/
def Shape.Upright (s : Shape) : Prop := s.kind = .box → Diagonal s.points

theorem Shape.diagonal_boxPoints (p q : Pixel) : Diagonal (boxPoints p q) :=
  ⟨_, _, rfl, Int.le_trans (Int.min_le_left _ _) (Int.le_max_left _ _),
    Int.le_trans (Int.min_le_left _ _) (Int.le_max_left _ _)⟩

theorem Provisional.upright_shape {α : Type} [Scalar α] (d : Provisional α) (category : String) :
    (d.shape category).Upright := by
  cases d with
  | box anchor corner => exact fun _ => Shape.diagonal_boxPoints _ _
  | line start finish => exact fun h => by cases h

namespace Canvas

variable {α : Type} [Scalar α]

/-- What a drag remembers is good for a box: a whole box was grabbed with its pixels in order. A
corner puts them in order by itself. -/
def GrabsUpright : Drag α → ShapeKind → Prop
  | .move _ _ grabbed, kind => kind = .box → Diagonal grabbed
  | .handle _ _ _, _ => True

/-- The pixels of a box that is moved as a whole stay in order. -/
theorem diagonal_movedPoints [Preorder α] (horder : Scalar.KeepsOrder α) {grabbed : List Pixel}
    (h : Diagonal grabbed) (dx dy : α) : Diagonal (movedPoints grabbed dx dy) := by
  obtain ⟨p, q, rfl, hx, hy⟩ := h
  have hmoved : ∀ (d : α) {a b : Int}, a ≤ b →
      Scalar.toInt (Scalar.ofInt a + d) ≤ Scalar.toInt (Scalar.ofInt b + d) :=
    fun d a b hab => horder.toInt (horder.add d (horder.ofInt hab))
  exact ⟨_, _, rfl, hmoved dx hx, hmoved dy hy⟩

theorem upright_resized (s : Shape) (r : Rect α) : (resized s r).Upright := by
  intro hbox
  rw [resized, Shape.normalizeBox_kind] at hbox
  replace hbox : s.kind = .box := hbox
  rw [resized, Shape.normalizeBox, hbox]
  exact Shape.diagonal_boxPoints _ _

/-- Every way to make or change a shape leaves boxes upright. -/
theorem keeps_upright [Preorder α] (horder : Scalar.KeepsOrder α) :
    Keeps Shape.Upright (GrabsUpright : Drag α → ShapeKind → Prop) where
  drawn := Provisional.upright_shape
  point := fun _ _ h => by cases h
  categorized := fun _ h => h
  tracked := fun _ h => h
  grabbed := fun _ _ h => h
  cornered := fun _ _ _ _ => trivial
  moved := fun dx dy _ hgrabbed hbox => diagonal_movedPoints horder (hgrabbed hbox) dx dy
  pulled := fun _ _ _ => ⟨upright_resized _ _, trivial⟩

/-- A canvas on which nothing is dragged yet leaves the boxes of a list upright, through any
sequence of operations on that list. -/
theorem upright_performAll [Preorder α] (horder : Scalar.KeepsOrder α) {c : Canvas α}
    {shapes : List Shape} (hfree : c.drag = none) (hupright : ∀ s ∈ shapes, s.Upright)
    (ops : List (CanvasOp α)) : ∀ s ∈ (c.performAll shapes ops).2, s.Upright := by
  have hkept : (c.performAll shapes ops).1.Kept Shape.Upright GrabsUpright
      (c.performAll shapes ops).2 :=
    (kept_of_no_drag hupright hfree).performAll (keeps_upright horder) ops
  exact hkept.all

/-- A box is moved while another one is being drawn, and that one is then resized and removed. -/
theorem upright_performAll_moved :
    let shapes : List Shape := [.box ⟨10, 10⟩ ⟨50, 50⟩, .point ⟨0, 0⟩]
    ∀ s ∈ ((new .box [] .default : Canvas ℝ).performAll shapes
        [.attach ⟨100, 100⟩, .dragStart ⟨10, 30⟩, .click ⟨70, 70⟩, .click ⟨90, 60⟩,
          .dragMove ⟨-5, 200⟩, .click ⟨90, 60⟩, .dragEnd, .dragStart ⟨90, 60⟩,
          .dragMove ⟨20, 20⟩, .deleteSelection]).2, s.Upright := by
  intro shapes
  refine upright_performAll Scalar.keepsOrder_real rfl (fun s hs => ?_) _
  simp only [shapes, List.mem_cons, List.not_mem_nil, or_false] at hs
  rcases hs with rfl | rfl
  · exact fun _ => Shape.diagonal_boxPoints _ _
  · exact fun h => by cases h

end Canvas

end Labeling
