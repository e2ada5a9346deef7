import Labeling.Proofs.Geometry.Exact
import Labeling.Proofs.Canvas.Edits

/-!
# What a drag makes of a shape

A drag depends on where it began and where the pointer is, not on the way between. For a whole shape
this is how it is computed, from the pixels that were grabbed. A corner of a box is moved step by
step instead: each move begins with the rectangle that the last one left, and when the pointer goes
beyond an opposite edge the corner on the other side is dragged from then on. What does not change
is the corner opposite to the one that is dragged (`Canvas.corner_pulled`), and with the position of
the pointer it makes up the rectangle (`Canvas.pulled_eq_ofCorners`).

All positions are in the image, and the arithmetic is exact.
-/

namespace Labeling

/-- The corner across. -/
def Corner.opposite (c : Corner) : Corner := ⟨!c.right, !c.bottom⟩

/-! ## Rectangles -/

namespace Rect

variable {r : Rect ℝ} {p q : Point ℝ}

theorem corner_real (r : Rect ℝ) (c : Corner) :
    r.corner c = ⟨if c.right then r.x + r.width else r.x,
      if c.bottom then r.y + r.height else r.y⟩ := by
  rcases c with ⟨right, bottom⟩
  have hone : (side true : ℝ) = 1 := Scalar.one_real
  have hzero : (side false : ℝ) = 0 := Scalar.zero_real
  cases right <;> cases bottom <;> simp [corner, hone, hzero]

/-- The corners of the rectangle between two points have their coordinates. -/
theorem corner_ofCorners (p q : Point ℝ) (c : Corner) :
    (ofCorners p q).corner c =
      ⟨if c.right then max p.x q.x else min p.x q.x,
        if c.bottom then max p.y q.y else min p.y q.y⟩ := by
  have hx : (ofCorners p q).x + (ofCorners p q).width = max p.x q.x := min_add_abs_sub ..
  have hy : (ofCorners p q).y + (ofCorners p q).height = max p.y q.y := min_add_abs_sub ..
  rw [corner_real, hx, hy]
  rfl

end Rect

namespace Canvas

variable {r : Rect ℝ} {corner : Corner} {p : Point ℝ}

/-- The rectangle goes from the corner opposite to the dragged one to the pointer. -/
theorem pulled_eq_ofCorners (r : Rect ℝ) (corner : Corner) (p : Point ℝ) :
    (pulled r corner p).1 = .ofCorners (r.corner corner.opposite) p := by
  -- On either axis one side of the rectangle is that of the opposite corner, the other the pointer.
  have hnear : ∀ x width p : ℝ, p + (width + (x - p)) = x + width := fun x width p => by ring
  have hfar : ∀ x p : ℝ, x + (p - x) = p := fun x p => by ring
  rcases corner with ⟨right, bottom⟩
  cases right <;> cases bottom <;>
    simp [pulled, Rect.normalized, Rect.ofCorners, Rect.topLeft, Rect.bottomRight, Rect.corner_real,
      Corner.opposite, hnear, hfar, Scalar.minimum, Scalar.abs, min_comm, abs_sub_comm]

/-- From now on the corner on the side of the pointer is dragged. Where the pointer is level with
the opposite corner, this is the side as it was. -/
theorem side_pulled (r : Rect ℝ) (corner : Corner) (p : Point ℝ) :
    ((pulled r corner p).2.right = true → (r.corner corner.opposite).x ≤ p.x) ∧
      ((pulled r corner p).2.right = false → p.x ≤ (r.corner corner.opposite).x) ∧
      ((pulled r corner p).2.bottom = true → (r.corner corner.opposite).y ≤ p.y) ∧
      ((pulled r corner p).2.bottom = false → p.y ≤ (r.corner corner.opposite).y) := by
  rcases corner with ⟨right, bottom⟩
  refine ⟨?_, ?_, ?_, ?_⟩ <;> cases right <;> cases bottom <;>
    simp [pulled, Rect.corner_real, Corner.opposite, Scalar.zero_real] <;> intro h <;> linarith

/-- The corner opposite to the one that is dragged from now on is the same as before. -/
theorem corner_pulled (r : Rect ℝ) (corner : Corner) (p : Point ℝ) :
    (pulled r corner p).1.corner (pulled r corner p).2.opposite = r.corner corner.opposite := by
  obtain ⟨hright, hleft, hbottom, htop⟩ := side_pulled r corner p
  rw [pulled_eq_ofCorners, Rect.corner_ofCorners]
  generalize r.corner corner.opposite = fixed at *
  generalize (pulled r corner p).2 = next at *
  rcases next with ⟨right, bottom⟩
  cases right <;> cases bottom <;> simp_all [Corner.opposite]

end Canvas

/-! ## Pixels -/

/-- The pixel at a corner of the box between two pixels. -/
def Corner.pixel (c : Corner) (u v : Pixel) : Pixel :=
  ⟨if c.right then max u.x v.x else min u.x v.x, if c.bottom then max u.y v.y else min u.y v.y⟩

theorem Corner.pixel_inRange (c : Corner) {u v : Pixel} (hu : u.InRange) (hv : v.InRange) :
    (c.pixel u v).InRange := by
  have hlow := Shape.boxPoints_inRange hu hv ⟨min u.x v.x, min u.y v.y⟩ (by simp [Shape.boxPoints])
  have hhigh := Shape.boxPoints_inRange hu hv ⟨max u.x v.x, max u.y v.y⟩ (by simp [Shape.boxPoints])
  rcases c with ⟨right, bottom⟩
  cases right <;> cases bottom
  · exact hlow
  · exact ⟨hlow.1, hhigh.2⟩
  · exact ⟨hhigh.1, hlow.2⟩
  · exact hhigh

theorem Rect.corner_ofCorners_point (u v : Pixel) (c : Corner) :
    (Rect.ofCorners u.point v.point : Rect ℝ).corner c = (c.pixel u v).point := by
  rw [corner_ofCorners]
  rcases c with ⟨right, bottom⟩
  cases right <;> cases bottom <;> simp [Corner.pixel, Pixel.point, Scalar.ofInt]

/-- A pixel is what it stands for in the image. -/
theorem Pixel.pixel_point {p : Pixel} (h : p.InRange) : (p.point : Point ℝ).pixel = p := by
  have hcast : ∀ {n : Int}, isInt64 n = true → Scalar.toInt (n : ℝ) = n := by
    intro n hn
    rw [isInt64_iff] at hn
    exact Scalar.toInt_intCast (by omega) (by omega)
  exact congrArg₂ Pixel.mk (hcast h.1) (hcast h.2)

/-- Dropping the fractions of the rectangle between two points gives the box between their
pixels. -/
theorem Rect.pixels_ofCorners (p q : Point ℝ) :
    [(ofCorners p q).topLeft.pixel, (ofCorners p q).bottomRight.pixel] =
      Shape.boxPoints p.pixel q.pixel := by
  have hx : (ofCorners p q).x + (ofCorners p q).width = max p.x q.x := min_add_abs_sub ..
  have hy : (ofCorners p q).y + (ofCorners p q).height = max p.y q.y := min_add_abs_sub ..
  have hmin : ∀ a b : ℝ,
      Scalar.toInt (Scalar.minimum a b) = min (Scalar.toInt a) (Scalar.toInt b) :=
    fun _ _ => Scalar.toInt_mono.map_min
  have hmax : ∀ a b : ℝ, Scalar.toInt (max a b) = max (Scalar.toInt a) (Scalar.toInt b) :=
    fun _ _ => Scalar.toInt_mono.map_max
  simp only [topLeft, bottomRight, Point.pixel, hx, hy, hmax]
  simp only [ofCorners, hmin]
  rfl

/-- The box between two pixels is in order. -/
theorem Shape.normalizeBox_boxPoints {s : Shape} (h : s.kind = .box) (p q : Pixel) :
    ({ s with points := boxPoints p q } : Shape).normalizeBox =
      { s with points := boxPoints p q } := by
  have hordered : boxPoints ⟨min p.x q.x, min p.y q.y⟩ ⟨max p.x q.x, max p.y q.y⟩ =
      boxPoints p q := by
    simp [boxPoints]
  unfold normalizeBox
  simp only [h]
  show ({ s with kind := .box, points := boxPoints _ _ } : Shape) = _
  rw [hordered]

/-! ## A drag under way -/

namespace Drag

/-- The pixels that a drag gives to its shape when the pointer is at a position. -/
def target {α : Type} [Scalar α] : Drag α → Point α → List Pixel
  | .move _ origin grabbed, q => Canvas.movedPoints grabbed (q.x - origin.x) (q.y - origin.y)
  | .handle _ corner r, q => Shape.boxPoints (r.corner corner.opposite).pixel q.pixel

/-- A corner is dragged only of a box, and the opposite one is at a pixel. -/
def Fits (d : Drag ℝ) (s : Shape) : Prop :=
  match d with
  | .move _ _ _ => True
  | .handle _ corner r =>
    s.kind = .box ∧ ∃ a : Pixel, a.InRange ∧ r.corner corner.opposite = a.point

theorem Fits.of_kind {d : Drag ℝ} {s s' : Shape} (h : d.Fits s) (hk : s'.kind = s.kind) :
    d.Fits s' := by
  cases d with
  | move index origin grabbed => trivial
  | handle index corner r => exact ⟨hk.trans h.1, h.2⟩

end Drag

namespace Canvas

variable {c : Canvas ℝ} {shapes : List Shape} {d : Drag ℝ} {s : Shape}

/-- A move of the pointer gives the dragged shape the pixels for where the pointer is, and leaves a
drag that gives the same for every position. -/
theorem dragMove_target (hd : c.drag = some d) (hs : shapes[d.index]? = some s) (hfits : d.Fits s)
    (p : Point ℝ) :
    (c.dragMove shapes p).2 =
        shapes.set d.index { s with points := d.target (c.stage.toNatural p) } ∧
      (c.dragMove shapes p).1.stage = c.stage ∧
      ∃ d', (c.dragMove shapes p).1.drag = some d' ∧ d'.index = d.index ∧ d'.target = d.target ∧
        d'.Fits s := by
  cases d with
  | move index origin grabbed =>
    simp only [dragMove, hd]
    exact ⟨modify_eq_set_of_getElem? _ hs, rfl, _, hd, rfl, rfl, trivial⟩
  | handle index corner r =>
    obtain ⟨hbox, a, ha, hcorner⟩ := hfits
    have hindex : shapes[index]? = some s := hs
    have hnext := corner_pulled r corner (c.stage.toNatural p)
    simp only [dragMove, hd]
    refine ⟨?_, rfl, _, rfl, rfl, ?_, hbox, a, ha, hnext.trans hcorner⟩
    · rw [modify_eq_set_of_getElem? _ hindex, pulled_eq_ofCorners, Rect.pixels_ofCorners,
        Shape.normalizeBox_boxPoints hbox]
      rfl
    · funext q
      simp only [Drag.target, hnext]

/-- A sequence of moves comes to what the last of them gives. -/
theorem performAll_dragMoves (ps : List (Point ℝ)) (p : Point ℝ) :
    ∀ {c : Canvas ℝ} {shapes : List Shape} {d : Drag ℝ} {s : Shape}, c.drag = some d →
      shapes[d.index]? = some s → d.Fits s →
        (c.performAll shapes ((ps ++ [p]).map .dragMove)).2 =
          shapes.set d.index { s with points := d.target (c.stage.toNatural p) } := by
  induction ps with
  | nil =>
    intro c shapes d s hd hs hfits
    exact (dragMove_target hd hs hfits p).1
  | cons q rest ih =>
    intro c shapes d s hd hs hfits
    obtain ⟨hshapes, hstage, d', hd', hindex, htarget, hfits'⟩ := dragMove_target hd hs hfits q
    have hlt : d.index < shapes.length := (List.getElem?_eq_some_iff.1 hs).1
    rw [List.cons_append, List.map_cons, performAll_cons]
    show ((c.dragMove shapes q).1.performAll (c.dragMove shapes q).2 _).2 = _
    rw [hshapes]
    have hs' : (shapes.set d.index { s with points := d.target (c.stage.toNatural q) })[d'.index]? =
        some { s with points := d.target (c.stage.toNatural q) } := by
      rw [hindex, List.getElem?_set_self hlt]
    have hrest := ih hd' hs' (hfits'.of_kind rfl)
    rw [hindex, htarget, hstage, List.set_set] at hrest
    exact hrest

/-- A drag that started holds what was grabbed. -/
theorem dragStart_eq_true {p : Point ℝ} (h : (c.dragStart shapes p).1 = true) :
    ∃ d, c.grabbed? shapes (c.stage.toNatural p) = some d ∧
      (c.dragStart shapes p).2 = ({ c with drag := some d } : Canvas ℝ).render shapes := by
  unfold dragStart at h ⊢
  split at h
  · cases h
  · rename_i hfree
    rw [if_neg hfree]
    cases hd : c.grabbed? shapes (c.stage.toNatural p) with
    | none => simp [hd] at h
    | some d => exact ⟨d, rfl, rfl⟩

/-- A drag depends on where it began and where the pointer is, not on the way between. A shape that
is dragged as a whole has the pixels it had when it was grabbed, moved by as much as the pointer has
moved since. A box that is dragged by a corner is the box between the opposite corner, as it was at
the start, and the pointer. All other shapes stay as they are. -/
theorem dragMoves_of_dragStart (hrange : ∀ s ∈ shapes, ∀ p ∈ s.points, p.InRange) {p₀ : Point ℝ}
    (hstart : (c.dragStart shapes p₀).1 = true) :
    let started := (c.dragStart shapes p₀).2
    let dragged (ps : List (Point ℝ)) (p : Point ℝ) : List Shape :=
      (started.performAll shapes ((ps ++ [p]).map .dragMove)).2
    (∃ i s, shapes[i]? = some s ∧ started.drag = some (.move i (c.stage.toNatural p₀) s.points) ∧
      ∀ ps p, dragged ps p = shapes.set i { s with points := s.points.map fun o =>
        (⟨o.x + ((c.stage.toNatural p).x - (c.stage.toNatural p₀).x),
          o.y + ((c.stage.toNatural p).y - (c.stage.toNatural p₀).y)⟩ : Point ℝ).pixel }) ∨
    (∃ i s u v corner, shapes[i]? = some s ∧ s.kind = .box ∧ s.points = [u, v] ∧
      started.drag = some (.handle i corner (.ofCorners u.point v.point)) ∧
      ∀ ps p, dragged ps p = shapes.set i { s with
        points :=
          (Shape.box (corner.opposite.pixel u v) (c.stage.toNatural p).pixel).points }) := by
  intro started dragged
  obtain ⟨d, hgrabbed, hstarted⟩ := dragStart_eq_true hstart
  have hdrag : started.drag = some d := congrArg Canvas.drag hstarted
  have hstage : started.stage = c.stage := (congrArg Canvas.stage hstarted).trans rfl
  obtain ⟨s, hs, hcases⟩ := grabbed?_cases hgrabbed
  rcases hcases with ⟨i, corner, r, hr, rfl⟩ | ⟨i, rfl⟩
  · obtain ⟨u, v, hbox, hpoints, rfl⟩ := s.boxRect?_eq_some hr
    have hin := hrange s (List.mem_of_getElem? hs)
    have hpixel : (corner.opposite.pixel u v).InRange :=
      corner.opposite.pixel_inRange (hin u (by simp [hpoints])) (hin v (by simp [hpoints]))
    have hfixed := Rect.corner_ofCorners_point u v corner.opposite
    refine Or.inr ⟨i, s, u, v, corner, hs, hbox, hpoints, hdrag, fun ps p => ?_⟩
    have hmoved := performAll_dragMoves ps p hdrag hs ⟨hbox, _, hpixel, hfixed⟩
    simp only [Drag.target, hfixed, Pixel.pixel_point hpixel, hstage] at hmoved
    exact hmoved
  · refine Or.inl ⟨i, s, hs, hdrag, fun ps p => ?_⟩
    have hmoved := performAll_dragMoves ps p hdrag hs trivial
    rw [hstage] at hmoved
    exact hmoved

/-- The top-left corner of a box is dragged across both opposite edges and back over one of them. -/
theorem dragMoves_of_dragStart_across :
    let c : Canvas ℝ := { (new .box [] .default).attach ⟨100, 100⟩ with selected := some 0 }
    let shapes : List Shape := [.box ⟨10, 10⟩ ⟨50, 50⟩, .point ⟨0, 0⟩]
    let started := (c.dragStart shapes ⟨10, 10⟩).2
    (c.dragStart shapes ⟨10, 10⟩).1 = true ∧
      (started.performAll shapes [.dragMove ⟨90, 80⟩, .dragMove ⟨70, 20⟩]).2 =
        [.box ⟨50, 50⟩ ⟨70, 20⟩, .point ⟨0, 0⟩] := by
  intro c shapes started
  have hnatural : ∀ p : Point ℝ, c.stage.toNatural p = p := by
    intro p
    have hone : (Scalar.one : ℝ) = 1 := Int.cast_one
    simp [c, attach, new, Stage.attach, Stage.refit, Stage.empty, Stage.toNatural,
      Display.toNatural, Display.identity, hone]
  have hat : (⟨10, 10⟩ : Point ℝ) = (⟨10, 10⟩ : Pixel).point := by simp [Pixel.point, Scalar.ofInt]
  have hto : (⟨70, 20⟩ : Point ℝ) = (⟨70, 20⟩ : Pixel).point := by simp [Pixel.point, Scalar.ofInt]
  have hnear : grabs (.ofCorners (⟨10, 10⟩ : Pixel).point (⟨50, 50⟩ : Pixel).point)
      (⟨10, 10⟩ : Point ℝ) ⟨false, false⟩ = true := by
    have hcorner : (Corner.pixel ⟨false, false⟩ ⟨10, 10⟩ ⟨50, 50⟩) = ⟨10, 10⟩ := by decide
    rw [grabs, Rect.corner_ofCorners_point, hcorner, ← hat, Scalar.le_real, Scalar.half_real]
    simp [Point.distance, Point.distanceSq, Scalar.sqrt, Scalar.ofInt, Style.handleRadius,
      Style.handleStrokeWidth]
    norm_num
  have hgrabbed : c.grabbed? shapes ⟨10, 10⟩ =
      some (.handle 0 ⟨false, false⟩
        (.ofCorners (⟨10, 10⟩ : Pixel).point (⟨50, 50⟩ : Pixel).point)) := by
    simp [grabbed?, handleAt?, c, shapes, Shape.boxRect?, Shape.box, Shape.plain, Shape.boxPoints,
      Corner.all, hnear]
  have hstarted : c.dragStart shapes ⟨10, 10⟩ =
      (true, ({ c with
        drag := some (.handle 0 ⟨false, false⟩
          (.ofCorners (⟨10, 10⟩ : Pixel).point (⟨50, 50⟩ : Pixel).point)) } :
        Canvas ℝ).render shapes) := by
    have hfree : (!c.stage.isAttached || c.isDrawing) = false := rfl
    simp only [dragStart, hfree, Bool.false_eq_true, if_false, hnatural, hgrabbed]
  have hrange : ∀ s ∈ shapes, ∀ p ∈ s.points, p.InRange := by
    simp [shapes, Shape.box, Shape.point, Shape.plain, Shape.boxPoints, Pixel.InRange, isInt64]
  have hstart : (c.dragStart shapes ⟨10, 10⟩).1 = true := by rw [hstarted]
  refine ⟨hstart, ?_⟩
  rcases dragMoves_of_dragStart hrange hstart with
    ⟨i, s, -, hdrag, -⟩ | ⟨i, s, u, v, corner, hs, -, hpoints, hdrag, hmoved⟩
  · rw [hstarted] at hdrag
    cases hdrag
  · rw [hstarted] at hdrag
    obtain ⟨rfl, rfl, -⟩ : 0 = i ∧ ⟨false, false⟩ = corner ∧ _ := by simpa [render] using hdrag
    obtain rfl : Shape.box ⟨10, 10⟩ ⟨50, 50⟩ = s := by simpa [shapes] using hs
    obtain ⟨rfl, rfl⟩ : (⟨10, 10⟩ : Pixel) = u ∧ (⟨50, 50⟩ : Pixel) = v := by
      simpa [Shape.box, Shape.plain, Shape.boxPoints] using hpoints
    have hlast := hmoved [⟨90, 80⟩] ⟨70, 20⟩
    rw [hnatural, hto, Pixel.pixel_point ⟨rfl, rfl⟩] at hlast
    exact hlast.trans (by decide)

end Canvas

end Labeling
