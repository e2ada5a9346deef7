import Mathlib
import Labeling.Proofs.Canvas.Kept
import Labeling.Proofs.Geometry.Outline

/-!
# What the pointer hits

Selecting, hovering and dragging begin with the question which shape is at a position, and the shapes
answer it by distances. In exact arithmetic these are true distances (`Point.Measures`,
`Rect.isLeast_borderDistance`), so that a box reacts in a band around its outline and nowhere else.
-/

namespace Labeling

/-- The distance from `p` to the segment from `a` to `b` is measured to `q`, which is the foot of the
perpendicular, held between the two ends, and no point of the segment is nearer. -/
structure Point.Measures (p a b q : Point ℝ) : Prop where
  distance_eq : segmentDistance p a b = p.distance q
  of_eq : a = b → q = a
  of_ne : a ≠ b → q = a.toward b (max 0 (min 1 (p.foot a b)))
  mem : q ∈ a.segment b
  nearest : ∀ s ∈ Set.Icc (0 : ℝ) 1, p.distanceSq q ≤ p.distanceSq (a.toward b s)

theorem Point.measures_nearestOnSegment (p a b : Point ℝ) :
    p.Measures a b (nearestOnSegment p a b) where
  distance_eq := rfl
  of_eq := by
    rintro rfl
    rw [nearestOnSegment_real, toward_self]
  of_ne _ := by rw [nearestOnSegment_real, Scalar.clampUnit_real]
  mem := nearestOnSegment_mem p a b
  nearest _ := distanceSq_nearestOnSegment_le p a b

namespace Shape

theorem isHit_of_box {s : Shape} (hbox : s.kind = .box) (p : Point ℝ) :
    s.isHit p = true ↔
      ∃ r : Rect ℝ, s.boxRect? = some r ∧ r.borderDistance p ≤ Style.boxHitWidth / 2 := by
  rw [isHit, hbox]
  cases hrect : (s.boxRect? : Option (Rect ℝ)) with
  | none => simp
  | some r => simp [Scalar.half_real]

/-- A box reacts within half the width of its band from its outline. One without its two pixels does
not react. -/
theorem isHit_iff_outline {s : Shape} (hbox : s.kind = .box) (p : Point ℝ) :
    s.isHit p = true ↔ ∃ u v : Pixel, s.points = [u, v] ∧
      ∃ q ∈ (u.point : Point ℝ).outline v.point, p.distance q ≤ Style.boxHitWidth / 2 := by
  have hnear (r : Rect ℝ) : r.borderDistance p ≤ Style.boxHitWidth / 2 ↔
      ∃ q ∈ r.outline, p.distance q ≤ Style.boxHitWidth / 2 :=
    Point.le_iff_of_isLeast (r.isLeast_borderDistance p)
  rw [isHit_of_box hbox]
  constructor
  · rintro ⟨r, hrect, hdistance⟩
    obtain ⟨u, v, -, hpoints, rfl⟩ := boxRect?_eq_some_iff.mp hrect
    rw [hnear, Rect.outline_ofCorners] at hdistance
    exact ⟨u, v, hpoints, hdistance⟩
  · rintro ⟨u, v, hpoints, hdistance⟩
    rw [← Rect.outline_ofCorners, ← hnear] at hdistance
    exact ⟨_, boxRect?_eq_some_iff.mpr ⟨u, v, hbox, hpoints, rfl⟩, hdistance⟩

/-- The distances by which shapes answer are those to a nearest point of a segment and of the outline
of a rectangle, also of one whose width or height is negative. So a box is hit if and only if some
point of its outline is within half the width of its band. -/
theorem hit_distances (p : Point ℝ) :
    (∀ a b : Point ℝ, p.Measures a b (nearestOnSegment p a b)) ∧
    (∀ r : Rect ℝ, (0 ≤ r.normalized.width ∧ 0 ≤ r.normalized.height ∧
        r.normalized.outline = r.outline) ∧
      IsLeast (p.distance '' r.normalized.outline) (r.borderDistance p)) ∧
    ∀ s : Shape, s.kind = .box → (s.isHit p = true ↔ ∃ u v : Pixel, s.points = [u, v] ∧
      ∃ q ∈ (u.point : Point ℝ).outline v.point, p.distance q ≤ Style.boxHitWidth / 2) := by
  refine ⟨p.measures_nearestOnSegment, fun r => ?_, fun s hbox => isHit_iff_outline hbox p⟩
  obtain ⟨hwidth, hheight⟩ := r.normalized_nonneg
  refine ⟨⟨hwidth, hheight, r.outline_normalized⟩, ?_⟩
  rw [r.outline_normalized]
  exact r.isLeast_borderDistance p

/-- A square box, given by its other two corners. -/
def square : Shape := box ⟨100, 0⟩ ⟨0, 100⟩

/-- Off a corner of the square it is hit from just the width of half its band away. The foot of the
perpendicular on the lower edge is beyond the corner there. -/
theorem hit_distances_square :
    let p : Point ℝ := ⟨108, 106⟩
    let a : Point ℝ := ⟨0, 100⟩
    let b : Point ℝ := ⟨100, 100⟩
    a ≠ b ∧ nearestOnSegment p a b = b ∧ (1 / 2 : ℝ) ∈ Set.Icc (0 : ℝ) 1 ∧
      p.distanceSq b ≤ p.distanceSq (a.toward b (1 / 2)) ∧ nearestOnSegment p a a = a ∧
      (⟨100, 100, -100, -100⟩ : Rect ℝ).borderDistance p ≤ p.distance b ∧
      square.kind = .box ∧ p.distance b = Style.boxHitWidth / 2 ∧ square.isHit p = true := by
  intro p a b
  obtain ⟨hsegment, hrect, hhit⟩ := hit_distances p
  have hne : a ≠ b := by simp [a, b]
  have hfoot : p.foot a b = 108 / 100 := by norm_num [p, a, b, Point.foot, Point.distanceSq]
  have hend : nearestOnSegment p a b = b := by
    rw [(hsegment a b).of_ne hne, hfoot]
    norm_num [Point.toward, a, b]
  have hhalf : (1 / 2 : ℝ) ∈ Set.Icc (0 : ℝ) 1 := by norm_num
  have hnearest := (hsegment a b).nearest _ hhalf
  rw [hend] at hnearest
  have hdistance : p.distance b = Style.boxHitWidth / 2 := by
    have hsq : p.distanceSq b = 10 ^ 2 := by norm_num [p, b, Point.distanceSq]
    have hroot : p.distance b = 10 := by
      rw [Point.distance, hsq]
      exact Real.sqrt_sq (by norm_num)
    rw [hroot, Style.boxHitWidth]
    norm_num
  have hcorner : b ∈ (⟨100, 100, -100, -100⟩ : Rect ℝ).normalized.outline := by
    rw [(hrect _).1.2.2]
    exact Or.inl ⟨Set.left_mem_uIcc, Or.inl rfl⟩
  have hside : b ∈ (Pixel.point ⟨0, 0⟩ : Point ℝ).outline (Pixel.point ⟨100, 100⟩) := by
    simp [Point.outline, Pixel.point, Scalar.ofInt, b]
  exact ⟨hne, hend, hhalf, hnearest, (hsegment a a).of_eq rfl, (hrect _).2.2 ⟨b, hcorner, rfl⟩, rfl,
    hdistance, (hhit square rfl).mpr ⟨⟨0, 0⟩, ⟨100, 100⟩, rfl, b, hside, hdistance.le⟩⟩

end Shape

end Labeling
