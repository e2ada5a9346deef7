import Mathlib.Analysis.Real.Sqrt
import Mathlib.Order.Interval.Set.UnorderedInterval
import Labeling.Geometry.Rect

/-!
# Exact arithmetic

On the real numbers the operations on coordinates are what they are meant to be: no sum is rounded
and no two distances are taken for equal that are not. Statements about geometry are made there.
The lemmas of this module say in the terms of the real numbers what the definitions over any
coordinates come to.
-/

namespace Labeling

/-- Coordinates in exact arithmetic. All of them are finite; the least of no distances, which is
never asked for, is zero. -/
noncomputable instance : Scalar ℝ where
  ofInt n := n
  abs a := |a|
  sqrt := Real.sqrt
  minimum := min
  maximum := max
  least
    | [] => 0
    | a :: rest => rest.foldl min a
  le a b := decide (a ≤ b)
  lt a b := decide (a < b)
  isFinite _ := true
  toInt a := max (-2 ^ 63) (min (2 ^ 63 - 1) (if 0 ≤ a then ⌊a⌋ else ⌈a⌉))
  toSize a := min (2 ^ 32 - 1) ⌊a⌋₊

namespace Scalar

@[simp] theorem le_real (a b : ℝ) : (le a b = true) ↔ a ≤ b := decide_eq_true_iff

@[simp] theorem lt_real (a b : ℝ) : (lt a b = true) ↔ a < b := decide_eq_true_iff

theorem zero_real : (zero : ℝ) = 0 := Int.cast_zero

theorem one_real : (one : ℝ) = 1 := Int.cast_one

theorem half_real (n : Int) : (half n : ℝ) = n / 2 := by
  show (n : ℝ) / ((2 : Int) : ℝ) = n / 2
  norm_num

theorem toInt_real (a : ℝ) :
    toInt a = max (-2 ^ 63) (min (2 ^ 63 - 1) (if 0 ≤ a then ⌊a⌋ else ⌈a⌉)) := rfl

/-- A whole number has no fraction. -/
theorem toInt_intCast {n : Int} (hlow : -2 ^ 63 ≤ n) (hhigh : n < 2 ^ 63) : toInt (n : ℝ) = n := by
  have htrunc : (if (0 : ℝ) ≤ n then ⌊(n : ℝ)⌋ else ⌈(n : ℝ)⌉) = n := by simp
  rw [toInt_real, htrunc]
  omega

/-- Dropping the fraction keeps the order. -/
theorem toInt_mono : Monotone (toInt : ℝ → Int) := by
  intro a b hab
  have htrunc : (if 0 ≤ a then ⌊a⌋ else ⌈a⌉) ≤ (if 0 ≤ b then ⌊b⌋ else ⌈b⌉) := by
    split_ifs with ha hb hb
    · exact Int.floor_le_floor hab
    · exact absurd (ha.trans hab) hb
    · have hup : ⌈a⌉ ≤ 0 := Int.ceil_le.2 (by push_cast; linarith)
      exact hup.trans (Int.floor_nonneg.2 hb)
    · exact Int.ceil_le_ceil hab
  rw [toInt_real, toInt_real]
  exact max_le_max_left _ (min_le_min_left _ htrunc)

end Scalar

namespace Rect

/-- The far side of what lies between two coordinates is the greater one. -/
theorem min_add_abs_sub (a b : ℝ) : min a b + |a - b| = max a b := by
  rw [← max_sub_min_eq_abs', add_sub_cancel]

end Rect

/-- A point is in a rectangle if it is between both pairs of sides, in whichever order they are. -/
theorem Rect.contains_real (r : Rect ℝ) (p : Point ℝ) :
    r.contains p = true ↔
      p.x ∈ Set.uIcc r.x (r.x + r.width) ∧ p.y ∈ Set.uIcc r.y (r.y + r.height) := by
  have hx : r.normalized.x + r.normalized.width = max r.x (r.x + r.width) := min_add_abs_sub ..
  have hy : r.normalized.y + r.normalized.height = max r.y (r.y + r.height) := min_add_abs_sub ..
  have hunfold : r.contains p = true ↔
      ((r.normalized.x ≤ p.x ∧ p.x ≤ r.normalized.x + r.normalized.width) ∧
        r.normalized.y ≤ p.y) ∧ p.y ≤ r.normalized.y + r.normalized.height := by
    simp only [contains, Bool.and_eq_true, Scalar.le_real]
  rw [hunfold, hx, hy, and_assoc]
  exact Iff.rfl

end Labeling
