import Labeling.Proofs.Canvas.Kept
import Labeling.Proofs.Shape.Stored
import Labeling.Proofs.Text.LeadingInt

/-!
# What a drag holds on to

A drag remembers a place in the list of shapes and how many pixels the shape there had when it
was grabbed. It grips (`Drag.Grips`) as long as the shape at that place is of a kind that can
have that many pixels. While it does, no operation of the canvas makes a shape malformed
(`Canvas.Holds.perform`): every shape can be drawn, a box has two corners, and all numbers fit
64 bits (`Shape.Sound`).

The grip is lost when the list is replaced under the drag, and this is the only way: every
operation of the canvas itself keeps it. A drag that lost its grip gives the shape at its
place the pixels of another one (`Canvas.dragMove_points`), and so makes it malformed
(`Canvas.dragMove_malforms`).
-/

namespace Labeling

/-! ## Shapes as they should be -/

/-- A shape of this kind can have a number of pixels: enough to be drawn, and two for a box. -/
def ShapeKind.Takes (k : ShapeKind) (n : Nat) : Prop := k.minPoints ≤ n ∧ (k = .box → n = 2)

namespace Shape

/-- A shape has a number of pixels that suits its kind, and its numbers fit 64 bits. -/
structure Sound (s : Shape) : Prop where
  takes : s.kind.Takes s.points.length
  inRange : s.InRange

variable {s : Shape}

theorem Sound.isDrawable (h : s.Sound) : s.isDrawable = true := decide_eq_true h.takes.1

theorem sound_plain {k : ShapeKind} {points : List Pixel} (hk : k.Takes points.length)
    (hp : ∀ p ∈ points, p.InRange) : (plain k points).Sound :=
  ⟨hk, hp, fun _ h => by cases h⟩

theorem Sound.withCategory (h : s.Sound) (category : String) : (s.withCategory category).Sound :=
  ⟨h.takes, h.inRange.points, h.inRange.track⟩

/-- The corners of a box are made of the coordinates of its corners. -/
theorem boxPoints_inRange {p q : Pixel} (hp : p.InRange) (hq : q.InRange) :
    ∀ r ∈ boxPoints p q, r.InRange := by
  have hmin : ∀ a b : Int, isInt64 a = true → isInt64 b = true → isInt64 (min a b) = true := by
    intro a b ha hb
    rcases Int.le_total a b with hab | hab
    · rwa [Int.min_eq_left hab]
    · rwa [Int.min_eq_right hab]
  have hmax : ∀ a b : Int, isInt64 a = true → isInt64 b = true → isInt64 (max a b) = true := by
    intro a b ha hb
    rcases Int.le_total a b with hab | hab
    · rwa [Int.max_eq_right hab]
    · rwa [Int.max_eq_left hab]
  intro r hr
  rcases List.mem_cons.1 hr with rfl | hr
  · exact ⟨hmin _ _ hp.1 hq.1, hmin _ _ hp.2 hq.2⟩
  · cases List.mem_singleton.1 hr
    exact ⟨hmax _ _ hp.1 hq.1, hmax _ _ hp.2 hq.2⟩

theorem sound_box {p q : Pixel} (hp : p.InRange) (hq : q.InRange) : (box p q).Sound :=
  sound_plain ⟨Nat.le_refl 2, fun _ => rfl⟩ (boxPoints_inRange hp hq)

theorem sound_line {p q : Pixel} (hp : p.InRange) (hq : q.InRange) : (line p q).Sound := by
  refine sound_plain ⟨Nat.le_refl 2, fun h => by cases h⟩ fun r hr => ?_
  rcases List.mem_cons.1 hr with rfl | hr
  · exact hp
  · cases List.mem_singleton.1 hr
    exact hq

theorem sound_point {p : Pixel} (hp : p.InRange) : (point p).Sound := by
  refine sound_plain ⟨Nat.le_refl 1, fun h => by cases h⟩ fun r hr => ?_
  cases List.mem_singleton.1 hr
  exact hp

@[simp] theorem length_normalizeBox (s : Shape) :
    s.normalizeBox.points.length = s.points.length := by
  unfold normalizeBox
  split
  · rename_i h
    rw [h]
    rfl
  · rfl

theorem Sound.normalizeBox (h : s.Sound) : s.normalizeBox.Sound := by
  refine ⟨by rw [normalizeBox_kind, length_normalizeBox]; exact h.takes, ?_⟩
  unfold Shape.normalizeBox
  split
  · rename_i p q _ hpoints
    refine ⟨boxPoints_inRange ?_ ?_, h.inRange.track⟩
    · exact h.inRange.points p (by rw [hpoints]; simp)
    · exact h.inRange.points q (by rw [hpoints]; simp)
  · exact h.inRange

end Shape

theorem Shape.Sound.setTrackText {s : Shape} (h : s.Sound) (text : String) :
    (s.setTrackText text).Sound :=
  ⟨h.takes, h.inRange.points, fun _ hn => isInt64_of_leadingInt? hn⟩

/-- A provisional shape becomes a shape as it should be. -/
theorem Provisional.sound_shape (d : Provisional Float) (category : String) :
    (d.shape category).Sound := by
  cases d with
  | box anchor corner =>
    exact (Shape.sound_box anchor.pixel_inRange corner.pixel_inRange).withCategory category
  | line start finish =>
    exact (Shape.sound_line start.pixel_inRange finish.pixel_inRange).withCategory category

/-! ## Drags -/

namespace Drag

variable {α : Type}

/-- The number of pixels that the drag gives to the shape at its place. -/
def count : Drag α → Nat
  | .move _ _ grabbed => grabbed.length
  | .handle _ _ _ => 2

/-- The shape at the place of the drag can have the pixels that the drag gives it. -/
def Grips (d : Drag α) (shapes : List Shape) : Prop :=
  ∃ s, shapes[d.index]? = some s ∧ s.kind.Takes d.count

end Drag

/-! ## The canvas over a list of shapes -/

namespace Canvas

/-- All shapes are as they should be, and the drag in progress, if there is one, grips. -/
structure Holds (c : Canvas Float) (shapes : List Shape) : Prop where
  sound : ∀ s ∈ shapes, s.Sound
  grips : ∀ d, c.drag = some d → d.Grips shapes

variable {c : Canvas Float} {shapes : List Shape}

theorem holds_iff_kept :
    c.Holds shapes ↔ c.Kept Shape.Sound (fun d k => k.Takes d.count) shapes :=
  ⟨fun h => ⟨h.sound, h.grips⟩, fun h => ⟨h.all, h.suits⟩⟩

theorem holds_of_no_drag (hs : ∀ s ∈ shapes, s.Sound) (hd : c.drag = none) : c.Holds shapes :=
  holds_iff_kept.2 (kept_of_no_drag hs hd)

theorem movedPoints_inRange (grabbed : List Pixel) (dx dy : Float) :
    ∀ p ∈ movedPoints grabbed dx dy, p.InRange := by
  intro p hp
  obtain ⟨q, -, rfl⟩ := List.mem_map.1 hp
  exact Point.pixel_inRange _

@[simp] theorem length_movedPoints (grabbed : List Pixel) (dx dy : Float) :
    (movedPoints grabbed dx dy).length = grabbed.length := List.length_map _

theorem sound_resized {s : Shape} (h : s.Sound) (hk : s.kind.Takes 2) (r : Rect Float) :
    (resized s r).Sound := by
  refine Shape.Sound.normalizeBox ⟨hk, fun p hp => ?_, h.inRange.track⟩
  rcases List.mem_cons.1 hp with rfl | hp
  · exact Point.pixel_inRange _
  · cases List.mem_singleton.1 hp
    exact Point.pixel_inRange _

/-- A handle belongs to a box, a whole shape lends the drag its own pixels, and a drag gives a
shape as many pixels as it took. -/
theorem keeps_sound :
    Keeps Shape.Sound (fun (d : Drag Float) (k : ShapeKind) => k.Takes d.count) where
  drawn := Provisional.sound_shape
  point := fun p category => (Shape.sound_point p.pixel_inRange).withCategory category
  categorized := fun category h => h.withCategory category
  tracked := fun text h => h.setTrackText text
  grabbed := fun index p h => h.takes
  cornered := by
    intro s r index corner hs hr
    obtain ⟨-, -, hbox, -⟩ := s.boxRect?_eq_some hr
    rw [hbox]
    exact ⟨Nat.le_refl 2, fun _ => rfl⟩
  moved := by
    intro s index origin grabbed dx dy hs hk
    refine ⟨?_, movedPoints_inRange grabbed dx dy, hs.inRange.track⟩
    show s.kind.Takes (movedPoints grabbed dx dy).length
    rw [length_movedPoints]
    exact hk
  pulled := fun p hs hk => ⟨sound_resized hs hk _, hk⟩

/-- No operation of the canvas makes a shape malformed or loosens the grip of a drag. -/
theorem Holds.perform (h : c.Holds shapes) (op : CanvasOp Float) :
    (c.perform shapes op).2.1.Holds (c.perform shapes op).2.2 :=
  holds_iff_kept.2 ((holds_iff_kept.1 h).perform keeps_sound op)

/-! ### Without a grip -/

/-- A drag gives the shape at its place the pixels that were grabbed, whatever its kind. -/
theorem dragMove_points {d : Drag Float} {s : Shape} (hd : c.drag = some d)
    (hs : shapes[d.index]? = some s) (pos : Point Float) :
    ∃ s', (c.dragMove shapes pos).2[d.index]? = some s' ∧ s'.kind = s.kind ∧
      s'.points.length = d.count := by
  have hmodify : ∀ f : Shape → Shape, (shapes.modify d.index f)[d.index]? = some (f s) := by
    intro f
    rw [List.getElem?_modify_eq, hs]
    rfl
  unfold dragMove
  rw [hd]
  cases d with
  | move index origin grabbed => exact ⟨_, hmodify _, rfl, length_movedPoints grabbed _ _⟩
  | handle index corner rect =>
    exact ⟨_, hmodify _, Shape.normalizeBox_kind _, Shape.length_normalizeBox _⟩

/-- A drag that lost its grip makes the shape at its place malformed. -/
theorem dragMove_malforms {d : Drag Float} (hd : c.drag = some d) (hi : d.index < shapes.length)
    (hg : ¬ d.Grips shapes) (pos : Point Float) :
    ∃ s ∈ (c.dragMove shapes pos).2, ¬ s.kind.Takes s.points.length := by
  obtain ⟨s', hs', hk, hlen⟩ := dragMove_points hd (List.getElem?_eq_getElem hi) pos
  refine ⟨s', List.mem_of_getElem? hs', ?_⟩
  rw [hk, hlen]
  exact fun ht => hg ⟨_, List.getElem?_eq_getElem hi, ht⟩

end Canvas

end Labeling
