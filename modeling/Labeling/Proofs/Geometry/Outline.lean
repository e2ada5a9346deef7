import Mathlib.Analysis.Convex.Segment
import Labeling.Proofs.Geometry.Exact

/-!
# Distances to segments and outlines

The distance to a segment is computed from the foot of a perpendicular, and that to the outline of a
rectangle is the least of four such distances. In exact arithmetic both are what their names say, the
distance to a point that is nearest among all points of the segment or of the outline.

* `Point.distanceSq_toward` compares the distances to all points of a line. With
  `Scalar.sq_clampUnit_sub_le` it gives the nearest point between two ends
  (`Point.distanceSq_nearestOnSegment_le`), which may be the same point;
* `Rect.mem_outline_iff` says that the four edges make up the outline, whatever the size of the
  rectangle, and `Rect.isLeast_borderDistance` that the least of the four distances is the one to it.
-/

namespace Labeling

namespace Scalar

/-! ## Clamping and the least of several -/

theorem isZero_real (a : ℝ) : isZero a = true ↔ a = 0 := by
  rw [isZero, Bool.and_eq_true, le_real, le_real, zero_real, ← le_antisymm_iff]

theorem clampUnit_real (a : ℝ) : clampUnit a = max 0 (min 1 a) := by
  simp only [clampUnit, lt_real, zero_real, one_real]
  split_ifs with hlow hhigh
  · rw [min_eq_right (hlow.le.trans zero_le_one), max_eq_left hlow.le]
  · rw [min_eq_left hhigh.le, max_eq_right zero_le_one]
  · rw [min_eq_right (not_lt.mp hhigh), max_eq_right (not_lt.mp hlow)]

theorem clampUnit_mem (a : ℝ) : clampUnit a ∈ Set.Icc (0 : ℝ) 1 := by
  rw [clampUnit_real]
  exact ⟨le_max_left .., max_le zero_le_one (min_le_left ..)⟩

/-- No number between zero and one is nearer to `t` than the clamped one. -/
theorem sq_clampUnit_sub_le (t : ℝ) {s : ℝ} (hs : s ∈ Set.Icc (0 : ℝ) 1) :
    (clampUnit t - t) ^ 2 ≤ (s - t) ^ 2 := by
  obtain ⟨hlow, hhigh⟩ := hs
  rw [clampUnit_real]
  rcases le_total t 0 with ht | ht
  · rw [min_eq_right (ht.trans zero_le_one), max_eq_left ht]
    exact pow_le_pow_left₀ (by linarith) (by linarith) 2
  rcases le_total t 1 with ht' | ht'
  · rw [min_eq_right ht', max_eq_right ht, sub_self, zero_pow two_ne_zero]
    exact sq_nonneg _
  · -- Beyond the end both differences are negative.
    rw [min_eq_left ht', max_eq_right zero_le_one, ← neg_sq, ← neg_sq (s - t)]
    exact pow_le_pow_left₀ (by linarith) (by linarith) 2

theorem isLeast_least {distances : List ℝ} (hne : distances ≠ []) :
    IsLeast {d | d ∈ distances} (least distances) := by
  cases distances with
  | nil => exact absurd rfl hne
  | cons d rest =>
    have hmin : (d :: rest).min? = some (least (d :: rest)) := List.min?_cons'
    exact List.min?_eq_some_iff.mp hmin

end Scalar

/-! ## Segments -/

namespace Point

/-- The point that is the part `s` of the way from `a` to `b`. -/
def toward (a b : Point ℝ) (s : ℝ) : Point ℝ := ⟨a.x + s * (b.x - a.x), a.y + s * (b.y - a.y)⟩

/-- The points from `a` to `b`, both included. -/
def segment (a b : Point ℝ) : Set (Point ℝ) := a.toward b '' Set.Icc 0 1

/-- Where the perpendicular from `p` meets the line from `a` to `b`, as a part of that way. -/
noncomputable def foot (p a b : Point ℝ) : ℝ :=
  ((p.x - a.x) * (b.x - a.x) + (p.y - a.y) * (b.y - a.y)) / a.distanceSq b

variable {p a b : Point ℝ}

theorem distanceSq_nonneg (a b : Point ℝ) : 0 ≤ a.distanceSq b :=
  add_nonneg (mul_self_nonneg _) (mul_self_nonneg _)

theorem abs_sub_le_distance (a b : Point ℝ) : |a.x - b.x| ≤ a.distance b := by
  refine Real.abs_le_sqrt ?_
  rw [distanceSq, sq]
  exact le_add_of_nonneg_right (mul_self_nonneg _)

theorem distance_le_distance_iff {q q' : Point ℝ} :
    p.distance q ≤ p.distance q' ↔ p.distanceSq q ≤ p.distanceSq q' :=
  Real.sqrt_le_sqrt_iff (distanceSq_nonneg p q')

theorem distanceSq_eq_zero : a.distanceSq b = 0 ↔ a = b := by
  rcases a with ⟨x, y⟩
  rcases b with ⟨x', y'⟩
  rw [distanceSq, mul_self_add_mul_self_eq_zero, sub_eq_zero, sub_eq_zero, Point.mk.injEq]

theorem foot_mul_distanceSq (p a b : Point ℝ) :
    p.foot a b * a.distanceSq b = (p.x - a.x) * (b.x - a.x) + (p.y - a.y) * (b.y - a.y) := by
  by_cases hab : a = b
  · subst hab
    simp [distanceSq]
  · exact div_mul_cancel₀ _ (distanceSq_eq_zero.not.mpr hab)

/-- The distance to a point of the line goes by Pythagoras from the foot of the perpendicular. -/
theorem distanceSq_toward (p a b : Point ℝ) (s : ℝ) :
    p.distanceSq (a.toward b s) =
      p.distanceSq (a.toward b (p.foot a b)) + (s - p.foot a b) ^ 2 * a.distanceSq b := by
  have hfoot := foot_mul_distanceSq p a b
  simp only [distanceSq, toward] at hfoot ⊢
  linear_combination 2 * (s - p.foot a b) * hfoot

theorem toward_self (a : Point ℝ) (s : ℝ) : a.toward a s = a := by
  simp [toward]

/-- The case of two equal ends needs no exception: every part of the way is at that point. -/
theorem nearestOnSegment_real (p a b : Point ℝ) :
    nearestOnSegment p a b = a.toward b (Scalar.clampUnit (p.foot a b)) := by
  have hlength : (b.x - a.x) * (b.x - a.x) + (b.y - a.y) * (b.y - a.y) = a.distanceSq b := by
    rw [distanceSq]
    ring
  rw [nearestOnSegment]
  split
  · next hzero =>
    rw [Scalar.isZero_real, hlength, distanceSq_eq_zero] at hzero
    rw [hzero, toward_self]
  · rw [hlength]
    rfl

/-- No point of the segment is nearer. -/
theorem distanceSq_nearestOnSegment_le (p a b : Point ℝ) {s : ℝ} (hs : s ∈ Set.Icc (0 : ℝ) 1) :
    p.distanceSq (nearestOnSegment p a b) ≤ p.distanceSq (a.toward b s) := by
  have hclamp := mul_le_mul_of_nonneg_right (Scalar.sq_clampUnit_sub_le (p.foot a b) hs)
    (distanceSq_nonneg a b)
  rw [nearestOnSegment_real, distanceSq_toward, distanceSq_toward p a b s]
  exact add_le_add_right hclamp _

theorem nearestOnSegment_mem (p a b : Point ℝ) : nearestOnSegment p a b ∈ a.segment b :=
  ⟨_, Scalar.clampUnit_mem _, (nearestOnSegment_real p a b).symm⟩

/-- Some point is within a distance if and only if the least distance is. -/
theorem le_iff_of_isLeast {points : Set (Point ℝ)} {least d : ℝ}
    (h : IsLeast (p.distance '' points) least) : least ≤ d ↔ ∃ q ∈ points, p.distance q ≤ d := by
  constructor
  · intro hd
    obtain ⟨q, hq, hattained⟩ := h.1
    exact ⟨q, hq, hattained.trans_le hd⟩
  · rintro ⟨q, hq, hd⟩
    exact (h.2 ⟨q, hq, rfl⟩).trans hd

theorem isLeast_segmentDistance (p a b : Point ℝ) :
    IsLeast (p.distance '' a.segment b) (segmentDistance p a b) := by
  refine ⟨⟨_, nearestOnSegment_mem p a b, rfl⟩, ?_⟩
  rintro _ ⟨_, ⟨s, hs, rfl⟩, rfl⟩
  exact distance_le_distance_iff.mpr (distanceSq_nearestOnSegment_le p a b hs)

/-- Along one axis a segment covers what lies between its ends. -/
theorem exists_part_iff {x x' z : ℝ} :
    (∃ s ∈ Set.Icc (0 : ℝ) 1, x + s * (x' - x) = z) ↔ z ∈ Set.uIcc x x' := by
  rw [← segment_eq_uIcc, segment_eq_image']
  rfl

theorem mem_segment_iff {q : Point ℝ} :
    q ∈ a.segment b ↔ ∃ s ∈ Set.Icc (0 : ℝ) 1,
      a.x + s * (b.x - a.x) = q.x ∧ a.y + s * (b.y - a.y) = q.y := by
  rcases q with ⟨x, y⟩
  simp only [segment, Set.mem_image, toward, Point.mk.injEq]

theorem mem_segment_horizontal {x x' y : ℝ} {q : Point ℝ} :
    q ∈ segment ⟨x, y⟩ ⟨x', y⟩ ↔ q.x ∈ Set.uIcc x x' ∧ q.y = y := by
  rw [mem_segment_iff, ← exists_part_iff, eq_comm (a := q.y)]
  simp only [sub_self, mul_zero, add_zero, ← and_assoc, exists_and_right]

theorem mem_segment_vertical {x y y' : ℝ} {q : Point ℝ} :
    q ∈ segment ⟨x, y⟩ ⟨x, y'⟩ ↔ q.y ∈ Set.uIcc y y' ∧ q.x = x := by
  rw [mem_segment_iff, ← exists_part_iff, eq_comm (a := q.x), and_comm]
  simp only [sub_self, mul_zero, add_zero, and_left_comm, exists_and_left]

/-- The outline of the rectangle between two opposite corners, in any order: what is level with one of
its sides and between the two others. -/
def outline (a b : Point ℝ) : Set (Point ℝ) :=
  {q | q.x ∈ Set.uIcc a.x b.x ∧ (q.y = a.y ∨ q.y = b.y) ∨
    q.y ∈ Set.uIcc a.y b.y ∧ (q.x = a.x ∨ q.x = b.x)}

theorem x_mem_uIcc_of_outline {q : Point ℝ} (h : q ∈ a.outline b) : q.x ∈ Set.uIcc a.x b.x := by
  rcases h with ⟨hx, -⟩ | ⟨-, hx | hx⟩
  · exact hx
  · exact hx ▸ Set.left_mem_uIcc
  · exact hx ▸ Set.right_mem_uIcc

end Point

/-! ## Outlines -/

namespace Rect

/-- The points on the sides of a rectangle, also of one with a negative size. -/
def outline (r : Rect ℝ) : Set (Point ℝ) := r.topLeft.outline r.bottomRight

theorem eq_min_or_eq_max {x x' z : ℝ} : z = min x x' ∨ z = max x x' ↔ z = x ∨ z = x' := by
  rcases le_total x x' with h | h
  · rw [min_eq_left h, max_eq_right h]
  · rw [min_eq_right h, max_eq_left h, or_comm]

theorem outline_ofCorners (p q : Point ℝ) : (ofCorners p q).outline = p.outline q := by
  have htopLeft : (ofCorners p q).topLeft = ⟨min p.x q.x, min p.y q.y⟩ := rfl
  have hbottomRight : (ofCorners p q).bottomRight = ⟨max p.x q.x, max p.y q.y⟩ :=
    congrArg₂ Point.mk (min_add_abs_sub ..) (min_add_abs_sub ..)
  rw [outline, htopLeft, hbottomRight]
  simp only [Point.outline, eq_min_or_eq_max, Set.uIcc_of_le min_le_max]
  rfl

theorem outline_normalized (r : Rect ℝ) : r.normalized.outline = r.outline := outline_ofCorners ..

theorem normalized_nonneg (r : Rect ℝ) : 0 ≤ r.normalized.width ∧ 0 ≤ r.normalized.height :=
  ⟨abs_nonneg _, abs_nonneg _⟩

/-- The edges make up the outline. -/
theorem mem_outline_iff {r : Rect ℝ} {q : Point ℝ} :
    q ∈ r.outline ↔ ∃ e ∈ r.edges, q ∈ e.1.segment e.2 := by
  rw [← outline_normalized, edges]
  generalize r.normalized = n
  simp only [List.mem_cons, List.not_mem_nil, or_false, exists_eq_or_imp, exists_eq_left, topLeft,
    bottomRight, Point.mem_segment_horizontal, Point.mem_segment_vertical]
  -- The lower and the left edge run backwards.
  rw [Set.uIcc_comm (n.x + n.width), Set.uIcc_comm (n.y + n.height)]
  simp only [outline, Point.outline, topLeft, bottomRight, Set.mem_ofPred_eq]
  tauto

/-- The distance to the outline is attained on it, and no point of it is nearer. -/
theorem isLeast_borderDistance (r : Rect ℝ) (p : Point ℝ) :
    IsLeast (p.distance '' r.outline) (r.borderDistance p) := by
  have hleast : IsLeast {d | d ∈ r.edges.map fun e => segmentDistance p e.1 e.2}
      (r.borderDistance p) := Scalar.isLeast_least (List.cons_ne_nil _ _)
  constructor
  · obtain ⟨e, he, hdistance⟩ := List.mem_map.mp hleast.1
    obtain ⟨q, hq, hattained⟩ := (Point.isLeast_segmentDistance p e.1 e.2).1
    exact ⟨q, mem_outline_iff.mpr ⟨e, he, hq⟩, hattained.trans hdistance⟩
  · rintro _ ⟨q, hq, rfl⟩
    obtain ⟨e, he, hon⟩ := mem_outline_iff.mp hq
    calc r.borderDistance p ≤ segmentDistance p e.1 e.2 :=
        hleast.2 (List.mem_map.mpr ⟨e, he, rfl⟩)
      _ ≤ p.distance q := (Point.isLeast_segmentDistance p e.1 e.2).2 ⟨q, hon, rfl⟩

end Rect

end Labeling
