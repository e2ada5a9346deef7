import Labeling.Decimal.Shortest

/-!
# The shortest decimal of a number other than zero has digits

The digits of the shortest decimal are never all zero (`Binary.shortest_digits_pos`), so that the
text of a floating-point number begins with a digit that counts. A decimal that lies in the interval
of a positive number is positive because the interval is. The other one, which is cut off after
seventeen digits, is positive because the first digit was not looked for too far up: the estimate
from the binary lengths is a lower bound (`Interval.reaches_estimate`), and it is only raised as long
as the number reaches it.
-/

namespace Labeling

namespace Binary

namespace Interval

variable {i : Interval}

/-! ## Integers in the interval -/

theorem contains_of_nearestInteger? {n : Nat} (h : i.nearestInteger? = some n) :
    i.contains n = true := by
  unfold nearestInteger? at h
  dsimp only at h
  split at h
  · cases h
  · cases h
    assumption
  · cases h
    assumption
  · split at h
    · cases h
      assumption
    · split at h
      · cases h
        assumption
      · split at h <;> cases h <;> assumption

/-- Zero lies in no interval of positive numbers. -/
theorem pos_of_contains (hlower : 0 < i.lower) {n : Nat} (h : i.contains n = true) : 0 < n := by
  refine Nat.pos_of_ne_zero fun hn => ?_
  subst hn
  unfold contains at h
  split at h <;> simp at h; omega

theorem scale_lower_pos (hlower : 0 < i.lower) (k : Int) : 0 < (i.scale k).lower :=
  Nat.mul_pos hlower (Nat.pow_pos (by decide))

/-! ## The place of the first digit -/

/-- The number is at least a power of ten. -/
def Reaches (i : Interval) (e : Int) : Prop :=
  Nat.pow 10 e.toNat * i.denominator ≤ i.value * Nat.pow 10 (-e).toNat

theorem reaches_go (fuel : Nat) : ∀ {e : Int}, i.Reaches e → i.Reaches (leadingExponent.go i fuel e) := by
  induction fuel with
  | zero => exact fun h => h
  | succ fuel ih =>
    intro e h
    rw [leadingExponent.go]
    split
    · rename_i hnext
      exact ih hnext
    · exact h

/-- Behind the place of the first digit there is a digit wherever the number is cut off. -/
theorem Reaches.cut_pos {e : Int} (h : i.Reaches e) (hd : 0 < i.denominator) (count : Nat) :
    0 < i.value * Nat.pow 10 (count - e).toNat / i.denominator := by
  refine Nat.div_pos ?_ hd
  have hone : i.denominator ≤ Nat.pow 10 e.toNat * i.denominator :=
    Nat.le_mul_of_pos_left _ (Nat.pow_pos (by decide))
  have hmore : Nat.pow 10 (-e).toNat ≤ Nat.pow 10 (count - e).toNat :=
    Nat.pow_le_pow_right (by decide) (by omega)
  exact Nat.le_trans hone (Nat.le_trans h (Nat.mul_le_mul_left _ hmore))

/-! ### The estimate -/

/-- Three tenths and a little more are enough to go from powers of two to powers of ten. -/
theorem pow_ten_le_pow_two : ∀ n : Fin 1100,
    Nat.pow 10 (n * 30103 / 100000 - 2) ≤ Nat.pow 2 n := by
  decide +kernel

theorem pow_two_le_pow_ten : ∀ n : Fin 1100,
    Nat.pow 2 n ≤ Nat.pow 10 (n * 30103 / 100000 + 2) := by
  decide +kernel

/-- The estimate of the place of the first digit is not too far up. -/
theorem reaches_estimate {k : Nat} (hd : i.denominator = Nat.pow 2 k) (hk : k < 1100)
    (hv : i.value ≠ 0) (ha : Nat.log2 i.value < 1100) :
    i.Reaches (((Nat.log2 i.value : Int) - (Nat.log2 i.denominator : Int)) * 30103 / 100000 - 2) := by
  have hlow : 2 ^ Nat.log2 i.value ≤ i.value := Nat.log2_self_le hv
  change i.denominator = 2 ^ k at hd
  unfold Reaches
  rw [hd, Nat.log2_two_pow]
  generalize Nat.log2 i.value = a at *
  rcases Nat.le_total k a with hle | hle
  · -- the number is at least one
    obtain ⟨n, rfl⟩ := Nat.exists_eq_add_of_le hle
    have hten := pow_ten_le_pow_two ⟨n, by omega⟩
    have hplace : (((k + n : Nat) : Int) - (k : Int)) * 30103 / 100000 - 2 =
        ((n * 30103 / 100000 : Nat) : Int) - 2 := by omega
    have hup : Nat.pow 10 (((n * 30103 / 100000 : Nat) : Int) - 2).toNat * 2 ^ k ≤ i.value := by
      rw [show (((n * 30103 / 100000 : Nat) : Int) - 2).toNat = n * 30103 / 100000 - 2 by omega]
      refine Nat.le_trans (Nat.mul_le_mul_right _ hten) ?_
      show 2 ^ n * 2 ^ k ≤ i.value
      rwa [← Nat.pow_add, Nat.add_comm n k]
    rw [hplace]
    exact Nat.le_trans hup (Nat.le_mul_of_pos_right _ (Nat.pow_pos (by decide)))
  · -- the number is less than one
    obtain ⟨n, rfl⟩ := Nat.exists_eq_add_of_le hle
    have htwo := pow_two_le_pow_ten ⟨n, by omega⟩
    have hplace : 0 ≤ -(((a : Int) - ((a + n : Nat) : Int)) * 30103 / 100000 - 2) ∧
        n * 30103 / 100000 + 2 ≤
          (-(((a : Int) - ((a + n : Nat) : Int)) * 30103 / 100000 - 2)).toNat := by omega
    rw [show (((a : Int) - ((a + n : Nat) : Int)) * 30103 / 100000 - 2).toNat = 0 by omega]
    have hup : 2 ^ (a + n) ≤ i.value * 10 ^ (n * 30103 / 100000 + 2) := by
      rw [Nat.pow_add]
      exact Nat.mul_le_mul hlow htwo
    refine Nat.le_trans (Nat.le_trans (Nat.le_of_eq (Nat.one_mul _)) hup) ?_
    exact Nat.mul_le_mul_left _ (Nat.pow_le_pow_right (by decide) hplace.2)

end Interval

/-! ## The shortest decimal -/

theorem shortestFrom_digits_pos {i : Interval} {leading : Int} (hlower : 0 < i.lower)
    (hd : 0 < i.denominator) (hreaches : i.Reaches leading) (fuel : Nat) :
    ∀ count, 0 < (shortestFrom i leading fuel count).digits := by
  induction fuel with
  | zero => exact fun count => hreaches.cut_pos hd count
  | succ fuel ih =>
    intro count
    rw [shortestFrom]
    split
    · rename_i digits hnearest
      exact Interval.pos_of_contains (Interval.scale_lower_pos hlower _)
        (Interval.contains_of_nearestInteger? hnearest)
    · exact ih (count + 1)

end Binary

/-- Zeros at the end are not all there is. -/
theorem Decimal.trimmed_digits_pos {d : Decimal} (h : 0 < d.digits) : 0 < d.trimmed.digits := by
  have hgo : ∀ (fuel : Nat) (d : Decimal), 0 < d.digits → 0 < (Decimal.trimmed.go fuel d).digits := by
    intro fuel
    induction fuel with
    | zero => exact fun d h => h
    | succ fuel ih =>
      intro d h
      rw [Decimal.trimmed.go]
      split
      · exact ih _ (by dsimp only; omega)
      · exact h
  exact hgo 20 d h

namespace Binary

/-- The shortest decimal of a number that is not zero is not zero. -/
theorem shortest_digits_pos {b : Binary} (hpos : 0 < b.significand)
    (hfits : b.significand < Nat.pow 2 53) (hleast : -1074 ≤ b.exponent) (hgreatest : b.exponent ≤ 972) :
    0 < b.shortest.digits := by
  have hup : 0 < Nat.pow 2 (b.exponent - 2).toNat := Nat.pow_pos (by decide)
  have hlower : 0 < b.interval.lower := by
    refine Nat.mul_pos ?_ hup
    split <;> omega
  have hdenominator : b.interval.denominator = 2 ^ (-(b.exponent - 2)).toNat := rfl
  have hvalue : b.interval.value = 4 * b.significand * 2 ^ (b.exponent - 2).toNat := rfl
  have hvalue_ne : b.interval.value ≠ 0 := by
    rw [hvalue]
    exact Nat.ne_of_gt (Nat.mul_pos (by omega) hup)
  have hlog : Nat.log2 b.interval.value < 1100 := by
    have hbits : 4 * b.significand < 2 ^ 55 := by
      rw [show Nat.pow 2 53 = 9007199254740992 from rfl] at hfits
      omega
    have hbound : b.interval.value < 2 ^ (55 + (b.exponent - 2).toNat) := by
      rw [hvalue, Nat.pow_add]
      exact Nat.mul_lt_mul_of_pos_right hbits hup
    have hlt := (Nat.log2_lt hvalue_ne).2 hbound
    omega
  have hreaches := Interval.reaches_go 8
    (Interval.reaches_estimate hdenominator (by omega) hvalue_ne hlog)
  have hd : 0 < b.interval.denominator := Nat.pow_pos (by decide)
  exact Decimal.trimmed_digits_pos (shortestFrom_digits_pos hlower hd hreaches 17 0)

/-- The magnitude of a double has no more binary digits and no greater exponent than fit. -/
theorem ofBits_bounds (bits : UInt64) :
    (ofBits bits).significand < Nat.pow 2 53 ∧ -1074 ≤ (ofBits bits).exponent ∧
      (ofBits bits).exponent ≤ 972 := by
  have hfraction : bits.toNat % Nat.pow 2 52 < Nat.pow 2 52 := Nat.mod_lt _ (by decide)
  have hbiased : bits.toNat / Nat.pow 2 52 % Nat.pow 2 11 < Nat.pow 2 11 := Nat.mod_lt _ (by decide)
  have h52 : Nat.pow 2 52 = 4503599627370496 := rfl
  have h11 : Nat.pow 2 11 = 2048 := rfl
  rw [show Nat.pow 2 53 = 9007199254740992 from rfl]
  unfold ofBits
  simp only [Int.ofNat_eq_natCast]
  split
  · refine ⟨?_, ?_, ?_⟩ <;> dsimp only <;> omega
  · refine ⟨?_, ?_, ?_⟩ <;> dsimp only <;> omega

end Binary

end Labeling
