import Mathlib
import Labeling.Geometry.Scalar

/-!
# Whole numbers in floating-point arithmetic

A whole number of at most 53 bits is a floating-point number, and no operation whose result is such a
number rounds it. The logical model of floating-point numbers gives them as a sign, a significand and an
exponent: the significand of a whole number is the number, scaled so that it has just 53 bits
(`Whole.IsWhole`).

* `Whole.roundWithAccuracy_exact` is the step that all else comes down to: bits are shifted out, and they
  are zeros;
* `Whole.IsWhole.add`, `Whole.IsWhole.sub`, `Whole.IsWhole.compare_eq` and `Whole.IsWhole.toInt_eq` say
  that the operations are those of the integers, and `Whole.IsWhole.unpack_pack` that the stored bits
  are read as the number they were made of;
* `Whole.Holds` is the same for floating-point numbers, and `Whole.holds_ofInt` says which are made of
  integers.
-/

namespace Labeling

namespace Whole

open Float.Model Float.Model.UnpackedFloat

/-! ## Significands -/

/-- The significand of a whole number of at most 53 bits: it is scaled so that it has just so many. -/
def significand (m : Nat) : Nat := m * 2 ^ (52 - m.log2)

/-- The exponent that undoes the scaling. -/
def exponent (m : Nat) : Int := -((52 - m.log2 : Nat) : Int)

theorem log2_le_of_lt {m : Nat} (hm : 0 < m) (hlt : m < 2 ^ 53) : m.log2 ≤ 52 :=
  Nat.le_of_lt_succ ((Nat.log2_lt (Nat.ne_of_gt hm)).mpr hlt)

theorem log2_mul_two_pow {m : Nat} (hm : 0 < m) (k : Nat) : (m * 2 ^ k).log2 = m.log2 + k := by
  induction k with
  | zero => simp
  | succ k ih =>
    have hpos : 0 < m * 2 ^ k := Nat.mul_pos hm (Nat.two_pow_pos k)
    rw [Nat.pow_succ, ← Nat.mul_assoc, Nat.mul_comm _ 2, Nat.log2_two_mul (Nat.ne_of_gt hpos), ih,
      Nat.add_assoc]

theorem significand_pos {m : Nat} (hm : 0 < m) : 0 < significand m :=
  Nat.mul_pos hm (Nat.two_pow_pos _)

theorem log2_significand {m : Nat} (hm : 0 < m) (hlt : m < 2 ^ 53) : (significand m).log2 = 52 := by
  rw [significand, log2_mul_two_pow hm, Nat.add_sub_cancel' (log2_le_of_lt hm hlt)]

/-- A number that is scaled further is its significand, scaled by the rest. -/
theorem mul_two_pow_eq (m : Nat) {k : Nat} (hk : 52 - m.log2 ≤ k) :
    m * 2 ^ k = significand m * 2 ^ (k - (52 - m.log2)) := by
  rw [significand, Nat.mul_assoc, ← Nat.pow_add, Nat.add_sub_cancel' hk]

/-! ## Rounding -/

/-- Zeros that are shifted out leave no residue. -/
theorem shiftRight_exact (m k : Nat) :
    (⟨m * 2 ^ k, false, false⟩ : ExtendedMantissa) >>> k = ⟨m, false, false⟩ := by
  induction k generalizing m with
  | zero => simp [HShiftRight.hShiftRight, Nat.repeat]
  | succ k ih =>
    have hhalf : (⟨m * 2 ^ (k + 1), false, false⟩ : ExtendedMantissa) >>> k = ⟨m * 2, false, false⟩ := by
      rw [Nat.pow_succ, Nat.mul_comm (2 ^ k), ← Nat.mul_assoc]
      exact ih (m * 2)
    show ExtendedMantissa.shiftRightOne
      ((⟨m * 2 ^ (k + 1), false, false⟩ : ExtendedMantissa) >>> k) = _
    rw [hhalf]
    simp [ExtendedMantissa.shiftRightOne]

/-- However a whole number of at most 53 bits is scaled, it is to be rounded to its own exponent. -/
theorem targetExponent_eq {m : Nat} (hm : 0 < m) (hlt : m < 2 ^ 53) (k : Nat) :
    Format.binary64.targetExponent (totalExponent (m * 2 ^ k) (-k)) = exponent m := by
  have hlog := log2_le_of_lt hm hlt
  simp only [Format.targetExponent, totalExponent, log2_mul_two_pow hm, Format.mantissaBits,
    Format.minExponent, exponent]
  omega

theorem shiftToTargetExponent_exact {m : Nat} (hm : 0 < m) (hlt : m < 2 ^ 53) {k : Nat}
    (hk : 52 - m.log2 ≤ k) :
    shiftToTargetExponent Format.binary64 (m * 2 ^ k) (-k) .exact =
      (⟨significand m, false, false⟩, exponent m) := by
  have hshift : (exponent m - -(k : Int)).toNat = k - (52 - m.log2) := by
    rw [exponent]
    omega
  simp only [shiftToTargetExponent, shiftToExponent, targetExponent_eq hm hlt, hshift,
    ExtendedMantissa.ofMantissaAndAccuracy]
  rw [mul_two_pow_eq m hk, shiftRight_exact, exponent]
  congr 1
  omega

/-- A whole number of at most 53 bits is not rounded. -/
theorem roundWithAccuracy_exact (s : Sign) {m : Nat} (hm : 0 < m) (hlt : m < 2 ^ 53) {k : Nat}
    (hk : 52 - m.log2 ≤ k) :
    roundWithAccuracy Format.binary64 s (m * 2 ^ k) (-k) .exact =
      .finite s (significand m) (exponent m) (significand_pos hm) := by
  have hagain : shiftToTargetExponent Format.binary64 (significand m) (exponent m) .exact =
      (⟨significand m, false, false⟩, exponent m) :=
    shiftToTargetExponent_exact hm hlt (Nat.le_refl (52 - m.log2))
  rw [roundWithAccuracy, shiftToTargetExponent_exact hm hlt hk]
  show (match shiftToTargetExponent Format.binary64 (significand m) (exponent m) .exact with
    | (em, e) => if h : em.mantissa = 0 then UnpackedFloat.zero s
      else .finite s em.mantissa e (Nat.pos_of_ne_zero h)) = _
  rw [hagain]
  exact dif_neg (Nat.ne_of_gt (significand_pos hm))

/-- A number is scaled up by as many bits as its exponent is lowered. -/
theorem decreaseExponent_eq (m : Nat) {j k : Nat} (hjk : j ≤ k) :
    decreaseExponent (m * 2 ^ j) (-j) (-k) = (m * 2 ^ k, -(k : Int)) := by
  have hshift : (-(j : Int) - -(k : Int)).toNat = k - j := by omega
  simp only [decreaseExponent, hshift, Nat.shiftLeft_eq, Nat.mul_assoc, ← Nat.pow_add,
    Nat.add_sub_cancel' hjk]
  congr 1
  omega

theorem round_exact (s : Sign) {m : Nat} (hm : 0 < m) (hlt : m < 2 ^ 53) (k : Nat) :
    UnpackedFloat.round Format.binary64 s (m * 2 ^ k) (-k) =
      .finite s (significand m) (exponent m) (significand_pos hm) := by
  rw [UnpackedFloat.round, targetExponent_eq hm hlt]
  rcases Nat.le_total k (52 - m.log2) with hk | hk
  · rw [exponent, decreaseExponent_eq m hk]
    exact roundWithAccuracy_exact s hm hlt (Nat.le_refl _)
  · have hsame : decreaseExponent (m * 2 ^ k) (-k) (exponent m) = (m * 2 ^ k, -(k : Int)) := by
      have hshift : (-(k : Int) - exponent m).toNat = 0 := by
        rw [exponent]
        omega
      simp [decreaseExponent, hshift]
    rw [hsame]
    exact roundWithAccuracy_exact s hm hlt hk

/-! ## Numbers that are whole -/

/-- What a whole number of at most 53 bits is as a floating-point number. -/
inductive IsWhole : Int → UnpackedFloat → Prop where
  | zero : IsWhole 0 (.zero .positive)
  | finite (s : Sign) {m : Nat} (hm : 0 < m) (hlt : m < 2 ^ 53) :
    IsWhole (s.apply m) (.finite s (significand m) (exponent m) (significand_pos hm))

variable {a b n : Int} {x y : UnpackedFloat}

/-- A scaled whole number is brought back to its own significand and exponent. -/
theorem isWhole_normalize (hn : n.natAbs < 2 ^ 53) (k : Nat) :
    IsWhole n (UnpackedFloat.normalize Format.binary64 (n * 2 ^ k) (-k) .positive) := by
  have hscale : (0 : Int) < 2 ^ k := Int.pow_pos (by decide)
  have hnat (m : Nat) : ((m : Int) * 2 ^ k).toNat = m * 2 ^ k := by
    rw [← Int.toNat_natCast (m * 2 ^ k)]
    push_cast
    rfl
  rcases Int.lt_trichotomy n 0 with hneg | rfl | hpos
  · have hcompare : compare (n * 2 ^ k) 0 = .lt :=
      Int.compare_eq_lt.mpr (Int.mul_neg_of_neg_of_pos hneg hscale)
    obtain ⟨m, rfl⟩ : ∃ m : Nat, n = -m := ⟨n.natAbs, by omega⟩
    rw [UnpackedFloat.normalize, hcompare, ← Int.neg_mul, Int.neg_neg, hnat,
      round_exact .negative (by omega) (by omega)]
    exact .finite .negative (by omega) (by omega)
  · rw [Int.zero_mul]
    exact .zero
  · have hcompare : compare (n * 2 ^ k) 0 = .gt :=
      Int.compare_eq_gt.mpr (Int.mul_pos hpos hscale)
    obtain ⟨m, rfl⟩ : ∃ m : Nat, n = m := ⟨n.natAbs, by omega⟩
    rw [UnpackedFloat.normalize, hcompare, hnat, round_exact .positive (by omega) (by omega)]
    exact .finite .positive (by omega) (by omega)

/-- A whole number is one floating-point number only. -/
theorem IsWhole.unique (hx : IsWhole a x) (hy : IsWhole b y) (hab : a = b) : x = y := by
  cases hx with
  | zero =>
    cases hy with
    | zero => rfl
    | finite s hm => cases s <;> simp [Sign.apply] at hab <;> omega
  | @finite s m hm hlt =>
    cases hy with
    | zero => cases s <;> simp [Sign.apply] at hab <;> omega
    | @finite t m' hm' hlt' =>
      obtain ⟨rfl, rfl⟩ : s = t ∧ m = m' := by
        cases s <;> cases t <;> simp [Sign.apply] at hab ⊢ <;> omega
      rfl

/-! ## Arithmetic -/

theorem apply_mul_two_pow (s : Sign) (m k : Nat) :
    s.apply ((m * 2 ^ k : Nat) : Int) = s.apply m * 2 ^ k := by
  cases s with
  | positive => simp [Sign.apply]
  | negative =>
    rw [Sign.apply, Sign.apply, Int.neg_mul]
    simp

/-- A significand is brought to a lower exponent without loss. -/
theorem decreaseExponent_significand {m k : Nat} (hk : 52 - m.log2 ≤ k) :
    decreaseExponent (significand m) (exponent m) (-k) = (m * 2 ^ k, -(k : Int)) :=
  decreaseExponent_eq m hk

theorem min_exponent (m m' : Nat) :
    min (exponent m) (exponent m') = -((max (52 - m.log2) (52 - m'.log2) : Nat) : Int) := by
  simp only [exponent]
  omega

theorem IsWhole.add (hx : IsWhole a x) (hy : IsWhole b y) (h : (a + b).natAbs < 2 ^ 53) :
    IsWhole (a + b) (UnpackedFloat.add Format.binary64 x y) := by
  cases hx with
  | zero =>
    rw [Int.zero_add]
    cases hy with
    | zero => exact .zero
    | finite s hm hlt => exact .finite s hm hlt
  | @finite s m hm hlt =>
    cases hy with
    | zero =>
      rw [Int.add_zero]
      exact .finite s hm hlt
    | @finite t m' hm' hlt' =>
      rw [UnpackedFloat.add, min_exponent]
      simp only [decreaseExponent_significand (Nat.le_max_left _ _),
        decreaseExponent_significand (Nat.le_max_right _ _), apply_mul_two_pow, ← Int.add_mul]
      exact isWhole_normalize h _

theorem IsWhole.sub (hx : IsWhole a x) (hy : IsWhole b y) (h : (a - b).natAbs < 2 ^ 53) :
    IsWhole (a - b) (UnpackedFloat.sub Format.binary64 x y) := by
  cases hx with
  | zero =>
    cases hy with
    | zero => exact .zero
    | @finite t m' hm' hlt' =>
      have hneg : 0 - t.apply m' = (-t).apply m' := by cases t <;> simp [Sign.apply]
      rw [hneg]
      exact .finite (-t) hm' hlt'
  | @finite s m hm hlt =>
    cases hy with
    | zero =>
      rw [Int.sub_zero]
      exact .finite s hm hlt
    | @finite t m' hm' hlt' =>
      rw [UnpackedFloat.sub, min_exponent]
      simp only [decreaseExponent_significand (Nat.le_max_left _ _),
        decreaseExponent_significand (Nat.le_max_right _ _), apply_mul_two_pow, ← Int.sub_mul]
      exact isWhole_normalize h _

theorem lt_of_log2_lt {m m' : Nat} (hm' : 0 < m') (h : m.log2 < m'.log2) : m < m' :=
  calc m < 2 ^ (m.log2 + 1) := Nat.lt_log2_self
    _ ≤ 2 ^ m'.log2 := Nat.pow_le_pow_right (by decide) h
    _ ≤ m' := Nat.log2_self_le (Nat.ne_of_gt hm')

/-- Scaled numbers are in the order of the numbers: that of their exponents, or if these are equal that
of their significands. -/
theorem compare_significand {m m' : Nat} (hm : 0 < m) (hm' : 0 < m') (hlt : m < 2 ^ 53)
    (hlt' : m' < 2 ^ 53) :
    (compare (exponent m) (exponent m')).then (compare (significand m) (significand m')) =
      compare m m' := by
  have hlog := log2_le_of_lt hm hlt
  have hlog' := log2_le_of_lt hm' hlt'
  rcases Nat.lt_trichotomy m.log2 m'.log2 with hlow | heq | hhigh
  · have hexp : exponent m < exponent m' := by
      simp only [exponent]
      omega
    rw [Int.compare_eq_lt.mpr hexp, Nat.compare_eq_lt.mpr (lt_of_log2_lt hm' hlow)]
    rfl
  · have hexp : exponent m = exponent m' := by rw [exponent, exponent, heq]
    rw [Int.compare_eq_eq.mpr hexp, significand, significand, heq]
    have hscale : 0 < 2 ^ (52 - m'.log2) := Nat.two_pow_pos _
    rcases Nat.lt_trichotomy m m' with hlt | rfl | hgt
    · rw [Nat.compare_eq_lt.mpr hlt, Nat.compare_eq_lt.mpr (Nat.mul_lt_mul_of_pos_right hlt hscale)]
      rfl
    · simp
    · rw [Nat.compare_eq_gt.mpr hgt, Nat.compare_eq_gt.mpr (Nat.mul_lt_mul_of_pos_right hgt hscale)]
      rfl
  · have hexp : exponent m' < exponent m := by
      simp only [exponent]
      omega
    rw [Int.compare_eq_gt.mpr hexp, Nat.compare_eq_gt.mpr (lt_of_log2_lt hm hhigh)]
    rfl

theorem compare_natCast (m m' : Nat) : compare (m : Int) (m' : Int) = compare m m' := by
  rcases Nat.lt_trichotomy m m' with hlt | rfl | hgt
  · rw [Nat.compare_eq_lt.mpr hlt, Int.compare_eq_lt.mpr (by omega)]
  · simp
  · rw [Nat.compare_eq_gt.mpr hgt, Int.compare_eq_gt.mpr (by omega)]

theorem compare_neg (m m' : Int) : compare (-m) (-m') = (compare m m').swap := by
  rcases Int.lt_trichotomy m m' with hlt | rfl | hgt
  · rw [Int.compare_eq_lt.mpr hlt, Int.compare_eq_gt.mpr (by omega)]
    rfl
  · simp
  · rw [Int.compare_eq_gt.mpr hgt, Int.compare_eq_lt.mpr (by omega)]
    rfl

/-- Whole numbers are compared as integers. -/
theorem IsWhole.compare_eq (hx : IsWhole a x) (hy : IsWhole b y) :
    x.compare y = some (compare a b) := by
  cases hx with
  | zero =>
    cases hy with
    | zero => rfl
    | @finite t m' hm' hlt' =>
      cases t with
      | negative => exact congrArg some (Int.compare_eq_gt.mpr (by omega : -(m' : Int) < 0)).symm
      | positive => exact congrArg some (Int.compare_eq_lt.mpr (by omega : (0 : Int) < m')).symm
  | @finite s m hm hlt =>
    cases hy with
    | zero =>
      cases s with
      | negative => exact congrArg some (Int.compare_eq_lt.mpr (by omega : -(m : Int) < 0)).symm
      | positive => exact congrArg some (Int.compare_eq_gt.mpr (by omega : (0 : Int) < m)).symm
    | @finite t m' hm' hlt' =>
      have hcompare := (compare_significand hm hm' hlt hlt').trans (compare_natCast m m').symm
      cases s with
      | negative =>
        cases t with
        | negative =>
          rw [UnpackedFloat.compare, hcompare, ← compare_neg]
          rfl
        | positive =>
          exact congrArg some (Int.compare_eq_lt.mpr (by omega : -(m : Int) < m')).symm
      | positive =>
        cases t with
        | negative =>
          exact congrArg some (Int.compare_eq_gt.mpr (by omega : -(m' : Int) < m)).symm
        | positive =>
          rw [UnpackedFloat.compare, hcompare]
          rfl

theorem IsWhole.isNaN_eq (hx : IsWhole n x) : x.isNaN = false := by
  cases hx <;> rfl

theorem IsWhole.toInt_eq (hx : IsWhole n x) (low high : Int) : x.toInt low high = n := by
  cases hx with
  | zero => rfl
  | @finite s m hm hlt =>
    have hkeep : decreaseExponent (significand m) (exponent m) 0 = (significand m, exponent m) := by
      have hshift : (exponent m - 0).toNat = 0 := by
        rw [exponent]
        omega
      simp only [decreaseExponent, hshift]
      simp
    have hshift : (0 - exponent m).toNat = 52 - m.log2 := by
      rw [exponent]
      omega
    rw [UnpackedFloat.toInt, roundToInt, hkeep]
    simp only [shiftToExponent, hshift, ExtendedMantissa.ofMantissaAndAccuracy]
    rw [significand, shiftRight_exact]

/-! ## Packed numbers -/

/-- The leading bit of a significand, which is not stored, is put back. -/
theorem append_significand {m : Nat} (hlog : m.log2 = 52) : (1#1 ++ BitVec.ofNat 52 m).toNat = m := by
  have hlow : 2 ^ 52 ≤ m := hlog ▸ Nat.log2_self_le (fun h => by simp [h] at hlog)
  have hhigh : m < 2 ^ 53 := by
    have hlt := Nat.lt_log2_self (n := m)
    rwa [hlog] at hlt
  rw [BitVec.toNat_append, ← Nat.shiftLeft_add_eq_or_of_lt (BitVec.isLt _)]
  simp [Nat.shiftLeft_eq]
  omega

/-- A number is packed without loss. -/
theorem IsWhole.unpack_pack (hx : IsWhole n x) :
    UnpackedFloat.unpack Format.binary64 (UnpackedFloat.pack Format.binary64 x) = x := by
  cases hx with
  | zero => rfl
  | @finite s m hm hlt =>
    have hlog := log2_le_of_lt hm hlt
    have hsig := log2_significand hm hlt
    have hbiased : (exponent m + Format.binary64.exponentBias +
        Format.binary64.mantissaBitsWithoutImplicit).toNat = 1023 + m.log2 := by
      show (exponent m + 1023 + 52).toNat = _
      rw [exponent]
      omega
    have hsmall : ¬2 ^ Format.binary64.exponentBits ≤ 1023 + m.log2 + 1 := by
      show ¬2048 ≤ _
      omega
    have hexp : (BitVec.ofNat 11 (1023 + m.log2)).toNat = 1023 + m.log2 := by
      rw [BitVec.toNat_ofNat, Nat.mod_eq_of_lt (by omega)]
    have hnotnan : BitVec.ofNat 11 (1023 + m.log2) ≠ -1#11 := by
      intro h
      have h := congrArg BitVec.toNat h
      rw [hexp, show (-1#11).toNat = 2047 from rfl] at h
      omega
    have hnotzero : BitVec.ofNat 11 (1023 + m.log2) ≠ 0#11 := by
      intro h
      have h := congrArg BitVec.toNat h
      rw [hexp, show (0#11).toNat = 0 from rfl] at h
      omega
    have hpack : UnpackedFloat.pack Format.binary64
        (.finite s (significand m) (exponent m) (significand_pos hm)) =
          packComponents Format.binary64 s (BitVec.ofNat 11 (1023 + m.log2))
            (BitVec.ofNat 52 (significand m)) := by
      rw [UnpackedFloat.pack, hbiased]
      exact (if_neg hsmall).trans (if_pos (by rw [hsig]; rfl))
    rw [hpack, UnpackedFloat.unpack]
    simp only [unpackMantissa_packComponents, unpackExponent_packComponents,
      unpackSign_packComponents]
    rw [if_neg hnotnan, if_neg hnotzero, UnpackedFloat.finite.injEq]
    refine ⟨by cases s <;> rfl, append_significand hsig, ?_⟩
    rw [hexp, exponent]
    show ((1023 + m.log2 : Nat) : Int) - (1023 + 52) = _
    omega

/-! ## Floating-point numbers -/

/-- The floating-point number is the whole number. -/
def Holds (n : Int) (f : Float) : Prop := ∃ x, IsWhole n x ∧ f = .ofModel (.pack x)

variable {f g : Float}

theorem Holds.unique (hf : Holds n f) (hg : Holds n g) : f = g := by
  obtain ⟨x, hx, rfl⟩ := hf
  obtain ⟨y, hy, rfl⟩ := hg
  rw [hx.unique hy rfl]

theorem unpack_pack {x : UnpackedFloat} (hx : IsWhole n x) : (Float.Model.pack x).unpack = x :=
  hx.unpack_pack

theorem Holds.add (hf : Holds a f) (hg : Holds b g) (h : (a + b).natAbs < 2 ^ 53) :
    Holds (a + b) (f + g) := by
  obtain ⟨x, hx, rfl⟩ := hf
  obtain ⟨y, hy, rfl⟩ := hg
  refine ⟨_, hx.add hy h, ?_⟩
  show Float.ofModel (.pack (UnpackedFloat.add Format.binary64 (Float.Model.pack x).unpack
    (Float.Model.pack y).unpack)) = _
  rw [unpack_pack hx, unpack_pack hy]

theorem Holds.sub (hf : Holds a f) (hg : Holds b g) (h : (a - b).natAbs < 2 ^ 53) :
    Holds (a - b) (f - g) := by
  obtain ⟨x, hx, rfl⟩ := hf
  obtain ⟨y, hy, rfl⟩ := hg
  refine ⟨_, hx.sub hy h, ?_⟩
  show Float.ofModel (.pack (UnpackedFloat.sub Format.binary64 (Float.Model.pack x).unpack
    (Float.Model.pack y).unpack)) = _
  rw [unpack_pack hx, unpack_pack hy]

theorem Holds.lt_iff (hf : Holds a f) (hg : Holds b g) : f < g ↔ a < b := by
  obtain ⟨x, hx, rfl⟩ := hf
  obtain ⟨y, hy, rfl⟩ := hg
  have hlt : Float.ofModel (.pack x) < Float.ofModel (.pack y) ↔
      (Float.Model.pack x).unpack.lt (Float.Model.pack y).unpack = true := decide_eq_true_iff
  rw [hlt, unpack_pack hx, unpack_pack hy, UnpackedFloat.lt, hx.compare_eq hy, ← Int.compare_eq_lt]
  simp

theorem Holds.isNaN_eq (hf : Holds n f) : f.isNaN = false := by
  obtain ⟨x, hx, rfl⟩ := hf
  show (Float.Model.pack x).unpack.isNaN = false
  rw [unpack_pack hx, hx.isNaN_eq]

theorem Holds.toInt_eq (hf : Holds n f) (hn : n.natAbs < 2 ^ 53) : f.toModel.toInt64.toInt = n := by
  obtain ⟨x, hx, rfl⟩ := hf
  show (Int64.ofIntClamp ((Float.Model.pack x).unpack.toInt _ _)).toInt = n
  rw [unpack_pack hx, hx.toInt_eq, Int64.ofIntClamp]
  have hlow : Int64.minValue.toInt ≤ n := by
    show -2 ^ 63 ≤ n
    omega
  have hhigh : n ≤ Int64.maxValue.toInt := by
    show n ≤ 2 ^ 63 - 1
    omega
  rw [dif_pos hlow, dif_pos hhigh]
  exact Int64.toInt_ofInt_of_le (by omega) (by omega)

/-- A product with one is not rounded. -/
theorem IsWhole.mul_one (hx : IsWhole n x) :
    UnpackedFloat.mul Format.binary64 x (.finite .positive (2 ^ 52) (-52) (by decide)) = x := by
  cases hx with
  | zero => rfl
  | @finite s m hm hlt =>
    have hsign : s * Sign.positive = s := by cases s <;> rfl
    have hsig : significand m * 2 ^ 52 = m * 2 ^ (52 - m.log2 + 52) := by
      rw [significand, Nat.mul_assoc, ← Nat.pow_add]
    have hexp : exponent m + -52 = -((52 - m.log2 + 52 : Nat) : Int) := by
      rw [exponent]
      omega
    rw [UnpackedFloat.mul, hsign, hsig, hexp]
    exact roundWithAccuracy_exact s hm hlt (Nat.le_add_right _ _)

/-- A number of at most 53 bits is converted exactly: it is that number times one. -/
theorem holds_ofNat {m : Nat} (hm : m < 2 ^ 53) : Holds m (Float.ofNat m) := by
  have hword : m.toUInt64.toNat = m := by
    show m % 2 ^ 64 = m
    omega
  have hx : IsWhole m (UnpackedFloat.ofUInt64 Format.binary64 m.toUInt64) := by
    have hnormal := isWhole_normalize (n := m) (by omega) 0
    rw [UnpackedFloat.ofUInt64, UnpackedFloat.ofNat, UnpackedFloat.ofInt, hword]
    simpa using hnormal
  refine ⟨_, hx, ?_⟩
  have hscientific : Float.ofNat m = m.toUInt64.toFloat * Float.ofBits 0x3FF0000000000000 :=
    dif_pos ⟨hm, by decide⟩
  have hone : (Float.ofBits 0x3FF0000000000000).toModel.unpack =
      .finite .positive (2 ^ 52) (-52) (by decide) := rfl
  rw [hscientific]
  show Float.ofModel (.pack (UnpackedFloat.mul Format.binary64 (Float.Model.pack
    (UnpackedFloat.ofUInt64 Format.binary64 m.toUInt64)).unpack _)) = _
  rw [hone, unpack_pack hx, hx.mul_one]

/-- The negative of a number that is not zero. -/
theorem IsWhole.neg (hx : IsWhole n x) (hn : n ≠ 0) : IsWhole (-n) x.neg := by
  cases hx with
  | zero => exact absurd rfl hn
  | @finite s m hm hlt =>
    have hneg : -s.apply (m : Int) = (-s).apply m := by cases s <;> simp [Sign.apply]
    rw [hneg]
    exact .finite (-s) hm hlt

theorem holds_ofInt (hn : n.natAbs < 2 ^ 53) : Holds n (Float.ofInt n) := by
  cases n with
  | ofNat m => exact holds_ofNat hn
  | negSucc m =>
    obtain ⟨x, hx, hf⟩ := holds_ofNat (m := m + 1) hn
    refine ⟨x.neg, hx.neg (by omega), ?_⟩
    show Float.neg (Float.ofNat (m + 1)) = _
    rw [hf]
    show Float.ofModel (.pack (Float.Model.pack x).unpack.neg) = _
    rw [unpack_pack hx]

theorem Holds.smallerFloat (hf : Holds a f) (hg : Holds b g) :
    Holds (min a b) (smallerFloat f g) := by
  rw [Labeling.smallerFloat, hf.isNaN_eq, hg.isNaN_eq]
  simp only [hg.lt_iff hf, Bool.false_eq_true, if_false]
  split
  · rwa [Int.min_eq_right (by omega)]
  · rwa [Int.min_eq_left (by omega)]

theorem Holds.greaterFloat (hf : Holds a f) (hg : Holds b g) :
    Holds (max a b) (greaterFloat f g) := by
  rw [Labeling.greaterFloat, hf.isNaN_eq, hg.isNaN_eq]
  simp only [hf.lt_iff hg, Bool.false_eq_true, if_false]
  split
  · rwa [Int.max_eq_right (by omega)]
  · rwa [Int.max_eq_left (by omega)]

end Whole

end Labeling
