import Labeling.Proofs.Geometry.Exact
import Labeling.Proofs.Geometry.Whole
import Labeling.Proofs.Shape.Stored

/-!
# Bounds are tight

The rectangle around a shape is built up pixel by pixel from its position and its size, and its far
corner is computed again at every step. Where that arithmetic is exact the rectangle is the least one:
its corners are the least and the greatest coordinates of all pixels (`Pixel.Spans`), in whatever order
these stand. Arithmetic is exact on the real numbers, and for floating-point numbers on coordinates of
at most 52 bits (`Scalar.ExactOn`).

* `Shape.extend_between` is one step, and `Shape.foldl_extend` all of them;
* `Shape.TightOver` is what follows for the shape that is stored as a detection.
-/

namespace Labeling

/-! ## Exact coordinates -/

namespace Scalar

/-- Arithmetic is exact on some integers. -/
structure ExactOn (α : Type) [Scalar α] (fits : Int → Prop) : Prop where
  minimum_eq : ∀ {a b : Int}, fits a → fits b → minimum (ofInt a : α) (ofInt b) = ofInt (min a b)
  maximum_eq : ∀ {a b : Int}, fits a → fits b → maximum (ofInt a : α) (ofInt b) = ofInt (max a b)
  sub_self : ∀ {a : Int}, fits a → (ofInt a : α) - ofInt a = zero
  add_sub : ∀ {a b : Int}, fits a → fits b → (ofInt a : α) + (ofInt b - ofInt a) = ofInt b
  toInt_eq : ∀ {a : Int}, fits a → toInt (ofInt a : α) = a

theorem exactOn_real : ExactOn ℝ fun n => isInt64 n = true where
  minimum_eq _ _ := (Int.cast_min ..).symm
  maximum_eq _ _ := (Int.cast_max ..).symm
  sub_self {a} _ := by
    show (a : ℝ) - a = ((0 : Int) : ℝ)
    simp
  add_sub _ _ := add_sub_cancel _ _
  toInt_eq {a} ha := by
    rw [isInt64_iff] at ha
    exact toInt_intCast (by omega) (by omega)

/-- The sum and the difference of two numbers of 52 bits have at most 53. -/
theorem exactOn_float : ExactOn Float fun n => n.natAbs < 2 ^ 52 where
  minimum_eq {a b} ha hb := by
    have hf : Whole.Holds a (Float.ofInt a) := Whole.holds_ofInt (by omega)
    have hg : Whole.Holds b (Float.ofInt b) := Whole.holds_ofInt (by omega)
    exact (hf.smallerFloat hg).unique (Whole.holds_ofInt (by omega))
  maximum_eq {a b} ha hb := by
    have hf : Whole.Holds a (Float.ofInt a) := Whole.holds_ofInt (by omega)
    have hg : Whole.Holds b (Float.ofInt b) := Whole.holds_ofInt (by omega)
    exact (hf.greaterFloat hg).unique (Whole.holds_ofInt (by omega))
  sub_self {a} ha := by
    have hf : Whole.Holds a (Float.ofInt a) := Whole.holds_ofInt (by omega)
    have hdifference := hf.sub hf (by omega)
    rw [Int.sub_self] at hdifference
    exact hdifference.unique (Whole.holds_ofInt (by decide))
  add_sub {a b} ha hb := by
    have hf : Whole.Holds a (Float.ofInt a) := Whole.holds_ofInt (by omega)
    have hg : Whole.Holds b (Float.ofInt b) := Whole.holds_ofInt (by omega)
    have hsum := hf.add (hg.sub hf (by omega)) (by omega)
    rw [add_sub_cancel] at hsum
    exact hsum.unique hg
  toInt_eq ha := (Whole.holds_ofInt (by omega)).toInt_eq (by omega)

end Scalar

/-! ## The least rectangle around some pixels -/

/-- Two pixels have the least and the greatest coordinates of some pixels. -/
structure Pixel.Spans (points : Set Pixel) (low high : Pixel) : Prop where
  left : IsLeast (Pixel.x '' points) low.x
  top : IsLeast (Pixel.y '' points) low.y
  right : IsGreatest (Pixel.x '' points) high.x
  bottom : IsGreatest (Pixel.y '' points) high.y

namespace Pixel

variable {points : Set Pixel} {low high low' high' : Pixel}

theorem spans_singleton (p : Pixel) : Spans {p} p p := by
  refine ⟨?_, ?_, ?_, ?_⟩
  · rw [Set.image_singleton]
    exact isLeast_singleton
  · rw [Set.image_singleton]
    exact isLeast_singleton
  · rw [Set.image_singleton]
    exact isGreatest_singleton
  · rw [Set.image_singleton]
    exact isGreatest_singleton

/-- One pixel more moves the corners as far as it reaches. -/
theorem Spans.insert (h : Spans points low high) (p : Pixel) :
    Spans (insert p points) ⟨min low.x p.x, min low.y p.y⟩ ⟨max high.x p.x, max high.y p.y⟩ := by
  refine ⟨?_, ?_, ?_, ?_⟩
  · rw [Set.image_insert_eq, min_comm low.x]
    exact h.left.insert p.x
  · rw [Set.image_insert_eq, min_comm low.y]
    exact h.top.insert p.y
  · rw [Set.image_insert_eq, max_comm high.x]
    exact h.right.insert p.x
  · rw [Set.image_insert_eq, max_comm high.y]
    exact h.bottom.insert p.y

theorem Spans.unique (h : Spans points low high) (h' : Spans points low' high') :
    low = low' ∧ high = high' := by
  have hleft := h.left.unique h'.left
  have htop := h.top.unique h'.top
  have hright := h.right.unique h'.right
  have hbottom := h.bottom.unique h'.bottom
  cases low
  cases high
  exact ⟨by rw [Pixel.mk.injEq]; exact ⟨hleft, htop⟩, by rw [Pixel.mk.injEq]; exact ⟨hright, hbottom⟩⟩

theorem Spans.mem (h : Spans points low high) {p : Pixel} (hp : p ∈ points) :
    low.x ≤ p.x ∧ p.x ≤ high.x ∧ low.y ≤ p.y ∧ p.y ≤ high.y :=
  ⟨h.left.2 ⟨p, hp, rfl⟩, h.right.2 ⟨p, hp, rfl⟩, h.top.2 ⟨p, hp, rfl⟩, h.bottom.2 ⟨p, hp, rfl⟩⟩

/-- The corners are those of a box, in order. -/
theorem Spans.boxPoints_eq (h : Spans points low high) : Shape.boxPoints low high = [low, high] := by
  obtain ⟨p, hp, -⟩ := h.left.1
  obtain ⟨hleft, hright, htop, hbottom⟩ := h.mem hp
  rw [Shape.boxPoints, min_eq_left (hleft.trans hright), min_eq_left (htop.trans hbottom),
    max_eq_right (hleft.trans hright), max_eq_right (htop.trans hbottom)]

/-- Each coordinate of the corners is that of some pixel. -/
theorem Spans.fits {fits : Int → Prop} (h : Spans points low high)
    (hfits : ∀ p ∈ points, fits p.x ∧ fits p.y) :
    (fits low.x ∧ fits low.y) ∧ fits high.x ∧ fits high.y := by
  obtain ⟨p, hp, hleft⟩ := h.left.1
  obtain ⟨q, hq, htop⟩ := h.top.1
  obtain ⟨u, hu, hright⟩ := h.right.1
  obtain ⟨v, hv, hbottom⟩ := h.bottom.1
  rw [← hleft, ← htop, ← hright, ← hbottom]
  exact ⟨⟨(hfits p hp).1, (hfits q hq).2⟩, (hfits u hu).1, (hfits v hv).2⟩

end Pixel

namespace Shape

open Pixel Scalar

variable {α : Type} [Scalar α] {fits : Int → Prop}

/-- The rectangle with two corners at pixels. -/
def between (low high : Pixel) : Rect α :=
  ⟨ofInt low.x, ofInt low.y, ofInt high.x - ofInt low.x, ofInt high.y - ofInt low.y⟩

/-- A rectangle is extended by moving its corners. -/
theorem extend_between (h : ExactOn α fits) {low high p : Pixel} (hlow : fits low.x ∧ fits low.y)
    (hhigh : fits high.x ∧ fits high.y) (hp : fits p.x ∧ fits p.y) :
    extend (between low high : Rect α) p.point =
      between ⟨min low.x p.x, min low.y p.y⟩ ⟨max high.x p.x, max high.y p.y⟩ := by
  simp only [extend, between, Pixel.point, h.add_sub hlow.1 hhigh.1, h.add_sub hlow.2 hhigh.2,
    h.minimum_eq hlow.1 hp.1, h.minimum_eq hlow.2 hp.2, h.maximum_eq hhigh.1 hp.1,
    h.maximum_eq hhigh.2 hp.2]

/-- A rectangle that spans some pixels and is extended to more of them spans them all. -/
theorem foldl_extend (h : ExactOn α fits) {rest : List Pixel} : ∀ {points : Set Pixel}
    {low high : Pixel}, Spans points low high → (∀ p ∈ points, fits p.x ∧ fits p.y) →
      (∀ p ∈ rest, fits p.x ∧ fits p.y) → ∃ low' high',
        Spans (points ∪ {p | p ∈ rest}) low' high' ∧
          rest.foldl (fun r p => extend r p.point) (between low high : Rect α) =
            between low' high' := by
  induction rest with
  | nil =>
    intro points low high hspans _ _
    refine ⟨low, high, ?_, rfl⟩
    simpa using hspans
  | cons p rest ih =>
    intro points low high hspans hpoints hrest
    obtain ⟨hp, hrest⟩ := List.forall_mem_cons.mp hrest
    obtain ⟨hlow, hhigh⟩ := hspans.fits hpoints
    have hinsert : ∀ q ∈ insert p points, fits q.x ∧ fits q.y := by
      rintro q (rfl | hq)
      · exact hp
      · exact hpoints q hq
    obtain ⟨low', high', hspans', hfold⟩ := ih (hspans.insert p) hinsert hrest
    refine ⟨low', high', ?_, ?_⟩
    · convert hspans' using 1
      ext q
      simp
      tauto
    · rw [List.foldl_cons, extend_between h hlow hhigh hp, hfold]

/-- The bounds of some pixels span them. -/
theorem boundsOf?_eq (h : ExactOn α fits) {points : List Pixel} {low high : Pixel}
    (hspans : Spans {p | p ∈ points} low high) (hpoints : ∀ p ∈ points, fits p.x ∧ fits p.y) :
    boundsOf? points = some (between low high : Rect α) := by
  cases points with
  | nil =>
    obtain ⟨p, hp, -⟩ := hspans.left.1
    cases hp
  | cons p rest =>
    have hp := hpoints p (List.mem_cons_self ..)
    have hstart : (⟨ofInt p.x, ofInt p.y, zero, zero⟩ : Rect α) = between p p := by
      rw [between, h.sub_self hp.1, h.sub_self hp.2]
    obtain ⟨low', high', hspans', hfold⟩ := foldl_extend h (spans_singleton p)
      (fun q hq => by cases hq; exact hp) hpoints
    have hsame : ({p} ∪ {q | q ∈ p :: rest} : Set Pixel) = {q | q ∈ p :: rest} := by
      ext q
      simp
    rw [hsame] at hspans'
    obtain ⟨rfl, rfl⟩ := hspans.unique hspans'
    show some ((p :: rest).foldl (fun r q => extend r q.point)
      (⟨ofInt p.x, ofInt p.y, zero, zero⟩ : Rect α)) = _
    rw [hstart, hfold]

theorem exists_spans {points : List Pixel} (hne : points ≠ []) :
    ∃ low high, Spans {p | p ∈ points} low high := by
  induction points with
  | nil => exact absurd rfl hne
  | cons p rest ih =>
    by_cases hrest : rest = []
    · subst hrest
      refine ⟨p, p, ?_⟩
      simpa using spans_singleton p
    · obtain ⟨low, high, hspans⟩ := ih hrest
      have hset : insert p {q | q ∈ rest} = {q | q ∈ p :: rest} := by
        ext q
        simp
      have hmore := hspans.insert p
      rw [hset] at hmore
      exact ⟨_, _, hmore⟩

/-! ## What is stored -/

/-- The bounds of a shape, over some coordinates, have their corners at two pixels, in whatever order
the pixels of the shape stand. Unless the shape is a box of two pixels, which is stored as it is, these
corners are what is stored of it as a detection; and what is read back is the box between them, in order
and around every pixel. -/
structure TightOver (α : Type) [Scalar α] (s : Shape) (low high : Pixel) : Prop where
  bounds : ∃ r : Rect α, s.bounds? = some r ∧ r.topLeft = low.point ∧ r.bottomRight = high.point
  order : ∀ points : List Pixel, points.Perm s.points →
    (boundsOf? points : Option (Rect α)) = s.bounds?
  stored : ¬(s.kind = .box ∧ s.points.length = 2) →
    let w := Encoding.detection.encodeOver α s
    (w.left, w.top, w.right, w.bottom) = (some low.x, some low.y, some high.x, some high.y) ∧
      ∃ b, Encoding.detection.decode? w = some b ∧ b.kind = .box ∧ b.points = [low, high] ∧
        b.normalizeBox = b ∧
        ∀ p ∈ s.points, low.x ≤ p.x ∧ p.x ≤ high.x ∧ low.y ≤ p.y ∧ p.y ≤ high.y

theorem corners_eq {s : Shape} (hbox : ¬(s.kind = .box ∧ s.points.length = 2)) {r : Rect α}
    (hr : s.bounds? = some r) :
    Encoding.corners α s = (r.topLeft.pixel, r.bottomRight.pixel) := by
  unfold Encoding.corners
  split
  · rename_i hkind hpoints
    exact absurd ⟨hkind, by rw [hpoints]; rfl⟩ hbox
  · rw [hr]

theorem topLeft_between (low high : Pixel) : (between low high : Rect α).topLeft = low.point := rfl

theorem bottomRight_between (h : ExactOn α fits) {low high : Pixel} (hlow : fits low.x ∧ fits low.y)
    (hhigh : fits high.x ∧ fits high.y) :
    (between low high : Rect α).bottomRight = high.point := by
  rw [Rect.bottomRight, between, h.add_sub hlow.1 hhigh.1, h.add_sub hlow.2 hhigh.2]
  rfl

theorem pixel_point (h : ExactOn α fits) {p : Pixel} (hp : fits p.x ∧ fits p.y) :
    (p.point : Point α).pixel = p := by
  rw [Point.pixel, Pixel.point, h.toInt_eq hp.1, h.toInt_eq hp.2]

/-- Where arithmetic is exact on its pixels, the bounds of a shape are tight. -/
theorem tightOver (h : ExactOn α fits) {s : Shape} {low high : Pixel}
    (hspans : Spans {p | p ∈ s.points} low high) (hfits : ∀ p ∈ s.points, fits p.x ∧ fits p.y) :
    TightOver α s low high := by
  have hbounds : s.bounds? = some (between low high : Rect α) := boundsOf?_eq h hspans hfits
  obtain ⟨hlow, hhigh⟩ := hspans.fits hfits
  have hcorner := bottomRight_between h hlow hhigh
  refine ⟨⟨_, hbounds, topLeft_between low high, hcorner⟩, ?_, ?_⟩
  · intro points hperm
    have hset : {p | p ∈ points} = {p | p ∈ s.points} := by
      ext p
      exact hperm.mem_iff
    rw [hbounds]
    exact boundsOf?_eq h (hset ▸ hspans) fun p hp => hfits p (hperm.mem_iff.mp hp)
  · intro hbox
    have hpixels := corners_eq hbox hbounds
    rw [hcorner, topLeft_between, pixel_point h hlow, pixel_point h hhigh] at hpixels
    have hordered : boxPoints low high = [low, high] := hspans.boxPoints_eq
    simp only [Encoding.encodeOver, hpixels]
    refine ⟨trivial, _, rfl, rfl, rfl, ?_, fun p hp => hspans.mem hp⟩
    simp only [normalizeBox, hordered]

/-- The bounds of every shape with a pixel are tight, in exact arithmetic, and for floating-point
numbers if no coordinate has more than 52 bits. -/
theorem tight_bounds {s : Shape} (hs : s.points ≠ []) : ∃ low high : Pixel,
    Spans {p | p ∈ s.points} low high ∧
    ((∀ p ∈ s.points, p.InRange) → TightOver ℝ s low high) ∧
    ((∀ p ∈ s.points, |p.x| < 2 ^ 52 ∧ |p.y| < 2 ^ 52) → TightOver Float s low high) := by
  obtain ⟨low, high, hspans⟩ := exists_spans hs
  refine ⟨low, high, hspans, fun hrange => tightOver exactOn_real hspans hrange, fun hsmall => ?_⟩
  refine tightOver exactOn_float hspans fun p hp => ?_
  obtain ⟨hx, hy⟩ := hsmall p hp
  rw [Int.abs_eq_natAbs] at hx hy
  omega

/-- A line of three pixels, each of which reaches farthest in some direction. -/
def bent : Shape := plain .polyline [⟨3, -1⟩, ⟨-7, 5⟩, ⟨0, 9⟩]

theorem spans_bent : Spans {p | p ∈ bent.points} ⟨-7, -1⟩ ⟨3, 9⟩ := by
  have hmem {p : Pixel} (hp : p ∈ bent.points) : p = ⟨3, -1⟩ ∨ p = ⟨-7, 5⟩ ∨ p = ⟨0, 9⟩ := by
    simpa [bent, plain] using hp
  refine ⟨⟨⟨⟨-7, 5⟩, by decide, rfl⟩, ?_⟩, ⟨⟨⟨3, -1⟩, by decide, rfl⟩, ?_⟩,
    ⟨⟨⟨3, -1⟩, by decide, rfl⟩, ?_⟩, ⟨⟨⟨0, 9⟩, by decide, rfl⟩, ?_⟩⟩
  all_goals
    rintro _ ⟨p, hp, rfl⟩
    rcases hmem hp with rfl | rfl | rfl <;> decide

theorem tight_bounds_bent : bent.points ≠ [] ∧ (∀ p ∈ bent.points, p.InRange) ∧
    (∀ p ∈ bent.points, |p.x| < 2 ^ 52 ∧ |p.y| < 2 ^ 52) ∧
    TightOver ℝ bent ⟨-7, -1⟩ ⟨3, 9⟩ ∧ TightOver Float bent ⟨-7, -1⟩ ⟨3, 9⟩ := by
  have hpoints : bent.points ≠ [] := by decide
  have hrange : ∀ p ∈ bent.points, p.InRange := by
    simp [bent, plain, Pixel.InRange, isInt64]
  have hsmall : ∀ p ∈ bent.points, |p.x| < 2 ^ 52 ∧ |p.y| < 2 ^ 52 := by
    simp [bent, plain]
  obtain ⟨low, high, hspans, hreal, hfloat⟩ := tight_bounds hpoints
  obtain ⟨rfl, rfl⟩ := hspans.unique spans_bent
  exact ⟨hpoints, hrange, hsmall, hreal hrange, hfloat hsmall⟩

end Shape

end Labeling
