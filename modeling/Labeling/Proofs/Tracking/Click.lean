import Mathlib.Order.Bounds.Basic
import Labeling.Proofs.Geometry.Outline
import Labeling.Proofs.Tracking.Numbers

/-!
# What a click does

A click is first of all on what is drawn on top: if that is a detection on a track, it is taken off
its track. Or else the nearest of the detections on no track is put on the track that is being
labeled, and labeling goes on in the next frame that still has one, or, if no later frame has, with
the next track in the first frame that has. `TrackEngine.Clicked` says this of the state before and
the state after, and `TrackEngine.clicked` that a click does no other thing.

What is on top, what is nearest and which frame is next are said without the searches that find
them: an index that is greatest or least among those with a property. Distances are those of exact
arithmetic.

Sizes, track numbers and frame indices are 64-bit integers, so all this holds as long as none of
those that a click computes is too great (`TrackEngine.clickFits`). Each of the three goes wrong if
it is (`TrackEngine.clicked_wraps`).
-/

namespace Labeling

/-! ## The item on top -/

section Topmost

variable {β : Type} {q : β → Bool}

theorem topmost?_eq_none_iff {items : List β} :
    topmost? q items = none ↔ ∀ b ∈ items, q b = false := by
  induction items with
  | nil => simp [topmost?]
  | cons b rest ih =>
    rw [List.forall_mem_cons, ← ih, topmost?]
    cases topmost? q rest <;> simp

/-- The index that is found is that of an item with the property, and the greatest one. -/
theorem topmost?_eq_some {items : List β} {index : Nat} (h : topmost? q items = some index) :
    ∃ b, items[index]? = some b ∧ q b = true ∧
      ∀ k c, items[k]? = some c → q c = true → k ≤ index := by
  induction items generalizing index with
  | nil => cases h
  | cons b rest ih =>
    rw [topmost?] at h
    cases hrest : topmost? q rest with
    | some i =>
      rw [hrest] at h
      cases h
      obtain ⟨c, hc, hq, hlast⟩ := ih hrest
      refine ⟨c, hc, hq, fun k c hk hqk => ?_⟩
      cases k with
      | zero => exact Nat.zero_le _
      | succ k => exact Nat.succ_le_succ (hlast k c hk hqk)
    | none =>
      simp only [hrest, Option.ite_none_right_eq_some] at h
      obtain ⟨hb, h⟩ := h
      cases h
      refine ⟨b, rfl, hb, fun k c hk hqk => ?_⟩
      cases k with
      | zero => exact Nat.le_refl 0
      | succ k =>
        have hno := topmost?_eq_none_iff.1 hrest c (List.mem_of_getElem? hk)
        rw [hno] at hqk
        cases hqk

end Topmost

theorem getElem?_concat {β : Type} {xs : List β} {x y : β} {k : Nat}
    (h : (xs ++ [x])[k]? = some y) : xs[k]? = some y ∨ k = xs.length ∧ y = x := by
  rcases Nat.lt_or_ge k xs.length with hk | hk
  · rw [List.getElem?_append_left hk] at h
    exact Or.inl h
  · rw [List.getElem?_append_right hk, List.getElem?_singleton,
      Option.ite_none_right_eq_some] at h
    exact Or.inr ⟨by omega, (Option.some.inj h.2).symm⟩

/-! ## Detections of a frame -/

namespace Detection

theorem isLabeled_eq_false {d : Detection} : d.isLabeled = false ↔ d.track = none :=
  Option.isSome_eq_false_iff.trans Option.isNone_iff_eq_none

/-- The border of a detection, in exact arithmetic. -/
def border (d : Detection) : Set (Point ℝ) :=
  (⟨d.left, d.top⟩ : Point ℝ).outline ⟨d.right, d.bottom⟩

/-- A position is over a detection: in its rectangle, the sides included, or within half a stroke
of its border. -/
def Under (d : Detection) (p : Point ℝ) : Prop :=
  p.x ∈ Set.uIcc (d.left : ℝ) d.right ∧ p.y ∈ Set.uIcc (d.top : ℝ) d.bottom ∨
    ∃ q ∈ d.border, p.distance q ≤ Style.strokeWidth / 2

/-- The rectangle of a detection ends at its right and bottom sides, unless its size wraps
around. -/
theorem bottomRight_rect {d : Detection} (h : d.sizeFits = true) :
    (d.rect : Rect ℝ).bottomRight = ⟨d.right, d.bottom⟩ := by
  obtain ⟨hwidth, hheight⟩ := Bool.and_eq_true_iff.1 h
  show (⟨(d.left : ℝ) + (wrapInt64 (d.right - d.left) : Int),
    (d.top : ℝ) + (wrapInt64 (d.bottom - d.top) : Int)⟩ : Point ℝ) = _
  rw [wrapInt64_of_isInt64 hwidth, wrapInt64_of_isInt64 hheight, Int.cast_sub, Int.cast_sub,
    add_sub_cancel, add_sub_cancel]

theorem isOn_iff_rect {d : Detection} {r : Rect ℝ} (hr : d.rect = r) {p : Point ℝ} :
    TrackEngine.isOn d p = true ↔
      p.x ∈ Set.uIcc r.x r.bottomRight.x ∧ p.y ∈ Set.uIcc r.y r.bottomRight.y ∨
        ∃ q ∈ r.outline, p.distance q ≤ Style.strokeWidth / 2 := by
  subst hr
  have hnear := Point.le_iff_of_isLeast ((d.rect : Rect ℝ).isLeast_borderDistance p)
    (d := (Style.strokeWidth : ℝ) / 2)
  simp only [TrackEngine.isOn, Bool.or_eq_true, Rect.contains_real, Scalar.le_real,
    Scalar.half_real, ← hnear]
  exact Iff.rfl

theorem isOn_iff_under {d : Detection} (h : d.sizeFits = true) {p : Point ℝ} :
    TrackEngine.isOn d p = true ↔ d.Under p := by
  rw [isOn_iff_rect rfl, Rect.outline, bottomRight_rect h]
  exact Iff.rfl

/-- A detection of a frame is the one on top at a position. -/
structure OnTop (ds : List Detection) (p : Point ℝ) (index : Nat) (d : Detection) : Prop where
  here : ds[index]? = some d
  under : d.Under p
  last : ∀ (k : Nat) (d' : Detection), ds[k]? = some d' → d'.Under p → k ≤ index

/-- A detection of a frame is on no track, and of those the nearest to a position, the first if
several are. -/
structure Nearest (ds : List Detection) (p : Point ℝ) (index : Nat) (d : Detection) : Prop where
  here : ds[index]? = some d
  free : d.track = none
  least : ∀ (k : Nat) (d' : Detection), ds[k]? = some d' → d'.track = none →
    d.topLeft.distanceSq p ≤ d'.topLeft.distanceSq p
  first : ∀ (k : Nat) (d' : Detection), ds[k]? = some d' → d'.track = none →
    d'.topLeft.distanceSq p = d.topLeft.distanceSq p → index ≤ k

theorem OnTop.unique {ds : List Detection} {p : Point ℝ} {i k : Nat} {d d' : Detection}
    (h : OnTop ds p i d) (h' : OnTop ds p k d') : i = k ∧ d = d' := by
  obtain rfl : i = k := Nat.le_antisymm (h'.last i d h.here h.under) (h.last k d' h'.here h'.under)
  exact ⟨rfl, Option.some.inj (h.here.symm.trans h'.here)⟩

/-- A detection that is on a track, or not nearer than the nearest one so far, does not take its
place. -/
theorem Nearest.concat {seen : List Detection} {index : Nat} {d new : Detection}
    {p : Point ℝ}
    (h : Nearest seen p index d)
    (hnew : new.track = none → d.topLeft.distanceSq p ≤ new.topLeft.distanceSq p) :
    Nearest (seen ++ [new]) p index d where
  here := by
    rw [List.getElem?_append_left (List.getElem?_eq_some_iff.1 h.here).1]
    exact h.here
  free := h.free
  least k d' hk hfree := by
    rcases getElem?_concat hk with hk | ⟨-, rfl⟩
    · exact h.least k d' hk hfree
    · exact hnew hfree
  first k d' hk hfree heq := by
    rcases getElem?_concat hk with hk | ⟨rfl, -⟩
    · exact h.first k d' hk hfree heq
    · exact Nat.le_of_lt (List.getElem?_eq_some_iff.1 h.here).1

/-- A detection on no track that is nearer than all before it is the nearest one. -/
theorem Nearest.of_concat {seen : List Detection} {new : Detection} {p : Point ℝ}
    (hfree : new.track = none)
    (hnearer : ∀ d ∈ seen, d.track = none → new.topLeft.distanceSq p < d.topLeft.distanceSq p) :
    Nearest (seen ++ [new]) p seen.length new where
  here := List.getElem?_concat_length
  free := hfree
  least k d' hk hfree' := by
    rcases getElem?_concat hk with hk | ⟨-, rfl⟩
    · exact le_of_lt (hnearer d' (List.mem_of_getElem? hk) hfree')
    · exact le_refl _
  first k d' hk hfree' heq := by
    rcases getElem?_concat hk with hk | ⟨rfl, -⟩
    · exact absurd heq (ne_of_gt (hnearer d' (List.mem_of_getElem? hk) hfree'))
    · exact Nat.le_refl _

theorem Nearest.unique {ds : List Detection} {p : Point ℝ} {i k : Nat} {d d' : Detection}
    (h : Nearest ds p i d) (h' : Nearest ds p k d') : i = k := by
  have heq : d.topLeft.distanceSq p = d'.topLeft.distanceSq p :=
    le_antisymm (h.least k d' h'.here h'.free) (h'.least i d h.here h.free)
  exact Nat.le_antisymm (h.first k d' h'.here h'.free heq.symm) (h'.first i d h.here h.free heq)

end Detection

namespace TrackEngine

open Detection

variable {e e' : TrackEngine} {frame : Nat} {p : Point ℝ}

/-- The search looks at the detections from the last one down to the one that it finds. -/
theorem sizeFits_of_hitFits (h : e.hitFits frame p = true) {k : Nat} {d : Detection}
    (hk : (e.frame frame)[k]? = some d) (hle : (e.hit? frame p).getD 0 ≤ k) :
    d.sizeFits = true := by
  refine List.all_eq_true.1 h d (List.mem_iff_getElem?.2 ⟨k - (e.hit? frame p).getD 0, ?_⟩)
  rw [List.getElem?_drop, Nat.add_sub_cancel' hle]
  exact hk

theorem onTop_of_hit (hfits : e.hitFits frame p = true) {index : Nat}
    (h : e.hit? frame p = some index) : ∃ d, OnTop (e.frame frame) p index d := by
  obtain ⟨d, hd, hon, hlast⟩ := topmost?_eq_some h
  have hsize : ∀ {k : Nat} {d' : Detection}, (e.frame frame)[k]? = some d' → index ≤ k →
      d'.sizeFits = true := fun hk hle => sizeFits_of_hitFits hfits hk (by rwa [h])
  refine ⟨d, hd, (isOn_iff_under (hsize hd (Nat.le_refl _))).1 hon, fun k d' hk hu => ?_⟩
  by_contra hgt
  exact hgt (hlast k d' hk ((isOn_iff_under (hsize hk (by omega))).2 hu))

theorem not_onTop_of_no_hit (hfits : e.hitFits frame p = true) (h : e.hit? frame p = none)
    (index : Nat) (d : Detection) : ¬ OnTop (e.frame frame) p index d := by
  intro htop
  have hoff := topmost?_eq_none_iff.1 h d (List.mem_of_getElem? htop.here)
  have hsize : d.sizeFits = true :=
    sizeFits_of_hitFits hfits htop.here (by rw [h]; exact Nat.zero_le _)
  rw [(isOn_iff_under hsize).2 htop.under] at hoff
  cases hoff

/-! ## The nearest detection -/

/-- What the search for the nearest detection has found among those it has seen. -/
def NearestSoFar (seen : List Detection) (p : Point ℝ) : Option (Nat × ℝ) → Prop
  | none => ∀ d ∈ seen, d.track ≠ none
  | some (index, distance) => ∃ d, Nearest seen p index d ∧ distance = d.topLeft.distanceSq p

/-- One comparison keeps what the search has found. -/
theorem NearestSoFar.closer {seen : List Detection} {best : Option (Nat × ℝ)}
    (h : NearestSoFar seen p best) (new : Detection) :
    NearestSoFar (seen ++ [new]) p (TrackEngine.closer p best seen.length new) := by
  unfold TrackEngine.closer
  split
  · rename_i hlabeled
    have hon : new.track ≠ none := Option.isSome_iff_ne_none.1 hlabeled
    match best, h with
    | none, h =>
      intro d hd
      rcases List.mem_append.1 hd with hd | hd
      · exact h d hd
      · rwa [List.mem_singleton.1 hd]
    | some (index, distance), ⟨d, hd, heq⟩ =>
      exact ⟨d, hd.concat fun hfree => absurd hfree hon, heq⟩
  · rename_i hlabeled
    have hfree : new.track = none := isLabeled_eq_false.1 (Bool.eq_false_of_not_eq_true hlabeled)
    match best, h with
    | none, h => exact ⟨new, .of_concat hfree fun d hd hfree' => absurd hfree' (h d hd), rfl⟩
    | some (index, distance), ⟨d, hd, heq⟩ =>
      by_cases hlt : new.topLeft.distanceSq p < distance
      · simp only [Scalar.lt_real, hlt, if_true]
        refine ⟨new, .of_concat hfree fun d' hd' hfree' => ?_, rfl⟩
        obtain ⟨k, hk⟩ := List.mem_iff_getElem?.1 hd'
        exact lt_of_lt_of_le (heq ▸ hlt) (hd.least k d' hk hfree')
      · simp only [Scalar.lt_real, hlt, if_false]
        exact ⟨d, hd.concat fun _ => heq ▸ not_lt.1 hlt, heq⟩

theorem NearestSoFar.nearestFrom {ds : List Detection} :
    ∀ {seen : List Detection} {best : Option (Nat × ℝ)}, NearestSoFar seen p best →
      NearestSoFar (seen ++ ds) p (TrackEngine.nearestFrom p best seen.length ds) := by
  induction ds with
  | nil =>
    intro seen best h
    rwa [List.append_nil]
  | cons d rest ih =>
    intro seen best h
    have hrest := ih (h.closer d)
    rwa [List.append_assoc, List.length_append] at hrest

/-- The search goes through the whole frame. -/
theorem nearestSoFar_frame (e : TrackEngine) (frame : Nat) (p : Point ℝ) :
    NearestSoFar (e.frame frame) p (TrackEngine.nearestFrom p none 0 (e.frame frame)) := by
  have hnone : NearestSoFar [] p none := fun d hd => by cases hd
  exact hnone.nearestFrom

theorem nearest_of_nearestUnlabeled {index : Nat} (h : e.nearestUnlabeled? frame p = some index) :
    ∃ d, Nearest (e.frame frame) p index d := by
  obtain ⟨⟨i, distance⟩, hfound, rfl⟩ := Option.map_eq_some_iff.1 h
  have hsearch := nearestSoFar_frame e frame p
  rw [hfound] at hsearch
  obtain ⟨d, hd, -⟩ := hsearch
  exact ⟨d, hd⟩

theorem no_free_of_no_nearest (h : e.nearestUnlabeled? frame p = none) :
    ∀ d ∈ e.frame frame, d.track ≠ none := by
  have hsearch := nearestSoFar_frame e frame p
  rw [Option.map_eq_none_iff.1 h] at hsearch
  exact hsearch

/-! ## Frames with a detection on no track -/

/-- A frame has a detection on no track. -/
def HasFree (frames : List (List Detection)) (frame : Nat) : Prop :=
  ∃ d ∈ frames[frame]?.getD [], d.track = none

/-- How many detections are on no track. -/
def freeCount (frames : List (List Detection)) : Nat :=
  frames.flatten.countP fun d => !d.isLabeled

theorem any_not_isLabeled {ds : List Detection} :
    (ds.any fun d => !d.isLabeled) = true ↔ ∃ d ∈ ds, d.track = none := by
  simp only [List.any_eq_true, Bool.not_eq_true', isLabeled_eq_false]

theorem firstUnlabeled?_eq_none {frames : List (List Detection)} {index : Nat}
    (h : firstUnlabeled? index frames = none) (k : Nat) : ¬ HasFree frames k := by
  induction frames generalizing index k with
  | nil =>
    rintro ⟨d, hd, -⟩
    cases hd
  | cons ds rest ih =>
    rw [firstUnlabeled?] at h
    split at h
    · cases h
    · rename_i hno
      cases k with
      | zero => exact fun hfree => hno (any_not_isLabeled.2 hfree)
      | succ k => exact ih h k

theorem firstUnlabeled?_eq_some {frames : List (List Detection)} {index k : Nat}
    (h : firstUnlabeled? index frames = some k) :
    ∃ i, k = index + i ∧ HasFree frames i ∧ ∀ j, HasFree frames j → i ≤ j := by
  induction frames generalizing index with
  | nil => cases h
  | cons ds rest ih =>
    rw [firstUnlabeled?] at h
    split at h
    · rename_i hany
      cases h
      exact ⟨0, rfl, any_not_isLabeled.1 hany, fun j _ => Nat.zero_le j⟩
    · rename_i hno
      obtain ⟨i, rfl, hfree, hleast⟩ := ih h
      refine ⟨i + 1, by omega, hfree, fun j hj => ?_⟩
      cases j with
      | zero => exact (hno (any_not_isLabeled.2 hj)).elim
      | succ j => exact Nat.succ_le_succ (hleast j hj)

theorem hasFree_drop {frames : List (List Detection)} {start i : Nat} :
    HasFree (frames.drop start) i ↔ HasFree frames (start + i) := by
  rw [HasFree, HasFree, List.getElem?_drop]

/-- The frame that is found is the first one from the start on with a detection on no track. -/
theorem isLeast_unlabeledFrameFrom {start k : Nat} (h : e.unlabeledFrameFrom? start = some k) :
    IsLeast {k | start ≤ k ∧ HasFree e.frames k} k := by
  obtain ⟨i, rfl, hfree, hleast⟩ := firstUnlabeled?_eq_some h
  refine ⟨⟨Nat.le_add_right start i, hasFree_drop.1 hfree⟩, fun j ⟨hj, hfreej⟩ => ?_⟩
  obtain ⟨n, rfl⟩ := Nat.exists_eq_add_of_le hj
  have hn := hleast n (hasFree_drop.2 hfreej)
  omega

theorem no_free_of_unlabeledFrameFrom {start : Nat} (h : e.unlabeledFrameFrom? start = none)
    {k : Nat} (hk : start ≤ k) : ¬ HasFree e.frames k := by
  obtain ⟨n, rfl⟩ := Nat.exists_eq_add_of_le hk
  exact fun hfree => firstUnlabeled?_eq_none h n (hasFree_drop.2 hfree)

/-! ## Changes of one detection -/

/-- A detection of a frame is on another track, or on none. Every other detection, the number of
the frames and what else is stored with them are as they were. -/
structure Retracked (e e' : TrackEngine) (frame index : Nat) (track : Option Int) : Prop where
  changed : (e'.frame frame)[index]? =
    (e.frame frame)[index]?.map fun d => { d with track }
  others : ∀ k i, (k, i) ≠ (frame, index) → (e'.frame k)[i]? = (e.frame k)[i]?
  frames : e'.frames.length = e.frames.length
  metadata : e'.metadata = e.metadata
  hasStored : e'.hasStored = e.hasStored

theorem retracked_setTrack (e : TrackEngine) (frame index : Nat) (track : Option Int) :
    Retracked e (e.setTrack frame index track) frame index track where
  changed := by
    rw [frame_setTrack, if_pos rfl, List.getElem?_modify_eq]
    rfl
  others k i hne := by
    rw [frame_setTrack]
    split
    · rename_i hk
      rw [List.getElem?_modify_ne]
      rintro rfl
      exact hne (by rw [hk])
    · rfl
  frames := List.length_modify ..
  metadata := rfl
  hasStored := rfl

theorem Retracked.frames_unique {e₁ e₂ : TrackEngine} {index : Nat} {track : Option Int}
    (h₁ : Retracked e e₁ frame index track) (h₂ : Retracked e e₂ frame index track) :
    e₁.frames = e₂.frames := by
  have hframe : ∀ k, e₁.frame k = e₂.frame k := by
    refine fun k => List.ext_getElem? fun i => ?_
    by_cases hplace : (k, i) = (frame, index)
    · cases hplace
      rw [h₁.changed, h₂.changed]
    · rw [h₁.others k i hplace, h₂.others k i hplace]
  refine List.ext_getElem (h₁.frames.trans h₂.frames.symm) fun k hk₁ hk₂ => ?_
  have hk := hframe k
  rwa [TrackEngine.frame, TrackEngine.frame, List.getElem?_eq_getElem hk₁,
    List.getElem?_eq_getElem hk₂] at hk

/-- A detection that is taken off its track is one more on no track. -/
theorem freeCount_taken {index : Nat} {d : Detection} (h : (e.frame frame)[index]? = some d)
    (hd : d.track ≠ none) :
    freeCount (e.setTrack frame index none).frames = freeCount e.frames + 1 := by
  have hcount := countP_flatten_modify (q := fun d => !d.isLabeled)
    (f := fun d : Detection => { d with track := none }) h
  have hon : d.isLabeled = true := Option.isSome_iff_ne_none.2 hd
  rw [hon] at hcount
  exact hcount

/-- A detection that is put on a track is one less on no track. -/
theorem freeCount_put {index : Nat} {d : Detection} (h : (e.frame frame)[index]? = some d)
    (hd : d.track = none) (track : Int) :
    freeCount (e.setTrack frame index (some track)).frames + 1 = freeCount e.frames := by
  have hcount := countP_flatten_modify (q := fun d => !d.isLabeled)
    (f := fun d : Detection => { d with track := some track }) h
  rw [isLabeled_eq_false.2 hd] at hcount
  exact hcount

/-! ## The click -/

/-- Where labeling goes on after a click in a frame. While a later frame has a detection on no
track, the next of these; the track stays the same. Or else the next track is begun, in the first
frame that has one, or in the same frame if none is left. -/
def GoesOn (e e' : TrackEngine) (frame next : Nat) : Bool → Prop
  | false => e'.next = e.next ∧ IsLeast {k | frame < k ∧ HasFree e'.frames k} next
  | true =>
    e'.next = e.next + 1 ∧ (∀ k, frame < k → ¬ HasFree e'.frames k) ∧
      (IsLeast {k | HasFree e'.frames k} next ∨ (∀ k, ¬ HasFree e'.frames k) ∧ next = frame)

theorem GoesOn.unique {e₁ e₂ : TrackEngine} {next₁ next₂ : Nat} {ended₁ ended₂ : Bool}
    (h₁ : GoesOn e e₁ frame next₁ ended₁) (h₂ : GoesOn e e₂ frame next₂ ended₂)
    (hframes : e₁.frames = e₂.frames) :
    next₁ = next₂ ∧ ended₁ = ended₂ ∧ e₁.next = e₂.next := by
  cases ended₁ <;> cases ended₂ <;> simp only [GoesOn, hframes] at h₁ h₂
  · exact ⟨h₁.2.unique h₂.2, rfl, h₁.1.trans h₂.1.symm⟩
  · exact (h₂.2.1 _ h₁.2.1.1 h₁.2.1.2).elim
  · exact (h₁.2.1 _ h₂.2.1.1 h₂.2.1.2).elim
  · refine ⟨?_, rfl, h₁.1.trans h₂.1.symm⟩
    rcases h₁.2.2, h₂.2.2 with ⟨hleast₁ | ⟨hno₁, rfl⟩, hleast₂ | ⟨hno₂, rfl⟩⟩
    · exact hleast₁.unique hleast₂
    · exact (hno₂ _ hleast₁.1).elim
    · exact (hno₁ _ hleast₂.1).elim
    · rfl

/-- What a click at a position of a frame returns, and which state it leads to. -/
inductive Clicked (e : TrackEngine) (frame : Nat) (p : Point ℝ) :
    TrackClick → TrackEngine → Prop where
  /-- The detection on top is on a track, and is taken off it. -/
  | taken {index : Nat} {d : Detection} {e' : TrackEngine}
      (top : OnTop (e.frame frame) p index d) (labeled : d.track ≠ none)
      (changed : Retracked e e' frame index none) (next : e'.next = e.next)
      (count : freeCount e'.frames = freeCount e.frames + 1) :
      Clicked e frame p (.unlabeled index) e'
  /-- Or else the nearest detection is put on the track. -/
  | put {index : Nat} {d : Detection} {e' : TrackEngine} {next : Nat} {ended : Bool}
      (top : ∀ i d', OnTop (e.frame frame) p i d' → d'.track = none)
      (nearest : Nearest (e.frame frame) p index d)
      (changed : Retracked e e' frame index (some e.next)) (goesOn : GoesOn e e' frame next ended)
      (count : freeCount e'.frames + 1 = freeCount e.frames) :
      Clicked e frame p (.assigned (some index) next ended) e'
  /-- The frame has no detection that could be put on it. -/
  | none {e' : TrackEngine} {next : Nat} {ended : Bool}
      (top : ∀ i d', OnTop (e.frame frame) p i d' → d'.track = none)
      (full : ¬ HasFree e.frames frame) (frames : e'.frames = e.frames)
      (metadata : e'.metadata = e.metadata) (hasStored : e'.hasStored = e.hasStored)
      (goesOn : GoesOn e e' frame next ended) :
      Clicked e frame p (.assigned none next ended) e'

/-- What `Clicked` says leaves nothing open. -/
theorem Clicked.unique {r₁ r₂ : TrackClick} {e₁ e₂ : TrackEngine}
    (h₁ : Clicked e frame p r₁ e₁) (h₂ : Clicked e frame p r₂ e₂) : r₁ = r₂ ∧ e₁ = e₂ := by
  have heq : e₁.frames = e₂.frames → e₁.metadata = e₂.metadata → e₁.next = e₂.next →
      e₁.hasStored = e₂.hasStored → e₁ = e₂ := by
    cases e₁
    cases e₂
    rintro rfl rfl rfl rfl
    rfl
  have hfree : ∀ {i : Nat} {d : Detection}, Nearest (e.frame frame) p i d →
      HasFree e.frames frame := fun h => ⟨_, List.mem_of_getElem? h.here, h.free⟩
  cases h₁ with
  | taken top₁ on₁ changed₁ next₁ =>
    cases h₂ with
    | taken top₂ on₂ changed₂ next₂ =>
      obtain ⟨rfl, rfl⟩ := top₁.unique top₂
      exact ⟨rfl, heq (changed₁.frames_unique changed₂)
        (changed₁.metadata.trans changed₂.metadata.symm) (next₁.trans next₂.symm)
        (changed₁.hasStored.trans changed₂.hasStored.symm)⟩
    | put top₂ => exact absurd (top₂ _ _ top₁) on₁
    | none top₂ => exact absurd (top₂ _ _ top₁) on₁
  | put top₁ nearest₁ changed₁ goesOn₁ =>
    cases h₂ with
    | taken top₂ on₂ => exact absurd (top₁ _ _ top₂) on₂
    | put top₂ nearest₂ changed₂ goesOn₂ =>
      obtain rfl := nearest₁.unique nearest₂
      have hframes := changed₁.frames_unique changed₂
      obtain ⟨rfl, rfl, hnext⟩ := goesOn₁.unique goesOn₂ hframes
      exact ⟨rfl, heq hframes (changed₁.metadata.trans changed₂.metadata.symm) hnext
        (changed₁.hasStored.trans changed₂.hasStored.symm)⟩
    | none top₂ full₂ => exact absurd (hfree nearest₁) full₂
  | none top₁ full₁ frames₁ metadata₁ hasStored₁ goesOn₁ =>
    cases h₂ with
    | taken top₂ on₂ => exact absurd (top₁ _ _ top₂) on₂
    | put top₂ nearest₂ => exact absurd (hfree nearest₂) full₁
    | none top₂ full₂ frames₂ metadata₂ hasStored₂ goesOn₂ =>
      have hframes := frames₁.trans frames₂.symm
      obtain ⟨rfl, rfl, hnext⟩ := goesOn₁.unique goesOn₂ hframes
      exact ⟨rfl, heq hframes (metadata₁.trans metadata₂.symm) hnext
        (hasStored₁.trans hasStored₂.symm)⟩

theorem unlabelAt_of_onTop (hfits : e.hitFits frame p = true) {index : Nat} {d : Detection}
    (h : OnTop (e.frame frame) p index d) (hd : d.track ≠ none) :
    e.unlabelAt frame p = (some index, e.setTrack frame index none) := by
  unfold unlabelAt
  cases hhit : e.hit? frame p with
  | none => exact (not_onTop_of_no_hit hfits hhit index d h).elim
  | some i =>
    obtain ⟨d', htop⟩ := onTop_of_hit hfits hhit
    obtain ⟨rfl, rfl⟩ := htop.unique h
    have hon : d'.isLabeled = true := Option.isSome_iff_ne_none.2 hd
    simp only [h.here, hon, if_true]

theorem unlabelAt_of_no_labeled (hfits : e.hitFits frame p = true)
    (h : ∀ i d, OnTop (e.frame frame) p i d → d.track = none) :
    e.unlabelAt frame p = (none, e) := by
  unfold unlabelAt
  cases hhit : e.hit? frame p with
  | none => rfl
  | some i =>
    obtain ⟨d, htop⟩ := onTop_of_hit hfits hhit
    simp only [htop.here, isLabeled_eq_false.2 (h i d htop), Bool.false_eq_true, if_false]

theorem fits_of_assigned {found : Option Nat} {next : Nat} {ended : Bool}
    (h : e.clickFits frame p = true) (hclick : (e.click frame p).1 = .assigned found next ended) :
    wrapUInt64 (frame + 1) = frame + 1 ∧ (ended = true → e.numberFits = true) := by
  rw [clickFits, hclick, Bool.and_eq_true, Bool.and_eq_true] at h
  obtain ⟨-, hframe, hnumber⟩ := h
  exact ⟨wrapUInt64_of_isUInt64 hframe, fun hended => by simpa [hended] using hnumber⟩

/-- After a detection was put on the track, or none could be, only the number of the track is left
to change. -/
theorem exists_goesOn (hfits : e.clickFits frame p = true)
    (h : e.unlabelAt frame p = (none, e)) :
    ∃ next ended number,
      e.click frame p = (.assigned (e.assignNearest frame p).1 next ended,
        { (e.assignNearest frame p).2 with next := number }) ∧
      GoesOn (e.assignNearest frame p).2 { (e.assignNearest frame p).2 with next := number }
        frame next ended := by
  have hsame := e.assignNearest_next frame p
  generalize hassign : e.assignNearest frame p = found at hsame ⊢
  obtain ⟨index, e'⟩ := found
  cases hlater : e'.unlabeledFrameFrom? (wrapUInt64 (frame + 1)) with
  | some next =>
    have hclick : e.click frame p = (.assigned index next false, e') := by
      simp only [click, h, hassign, hlater]
    rw [(fits_of_assigned hfits (congrArg Prod.fst hclick)).1] at hlater
    exact ⟨next, false, e'.next, hclick, rfl, isLeast_unlabeledFrameFrom hlater⟩
  | none =>
    have hclick : e.click frame p = (.assigned index ((e'.unlabeledFrameFrom? 0).getD frame) true,
        { e' with next := following e'.next }) := by
      simp only [click, h, hassign, hlater, endTrack]
    obtain ⟨hframe, hnumber⟩ := fits_of_assigned hfits (congrArg Prod.fst hclick)
    have hfollowing : following e'.next = e'.next + 1 :=
      following_eq (e := e') (by rw [numberFits, hsame]; exact hnumber rfl)
    rw [hframe] at hlater
    refine ⟨_, true, following e'.next, hclick, hfollowing,
      fun k hk => no_free_of_unlabeledFrameFrom hlater hk, ?_⟩
    cases hfirst : e'.unlabeledFrameFrom? 0 with
    | some next =>
      have hleast := isLeast_unlabeledFrameFrom hfirst
      simp only [Nat.zero_le, true_and] at hleast
      exact Or.inl hleast
    | none => exact Or.inr ⟨fun k => no_free_of_unlabeledFrameFrom hfirst (Nat.zero_le k), rfl⟩

/-- A click at any position of any frame, in any state, does what `Clicked` says, as long as it
computes nothing that does not fit. -/
theorem clicked (h : e.clickFits frame p = true) :
    Clicked e frame p (e.click frame p).1 (e.click frame p).2 := by
  have hhit : e.hitFits frame p = true := (Bool.and_eq_true_iff.1 h).1
  by_cases hlabeled : ∃ index d, OnTop (e.frame frame) p index d ∧ d.track ≠ none
  · obtain ⟨index, d, htop, hd⟩ := hlabeled
    have hclick : e.click frame p = (.unlabeled index, e.setTrack frame index none) := by
      rw [click, unlabelAt_of_onTop hhit htop hd]
    rw [hclick]
    exact .taken htop hd (retracked_setTrack ..) rfl (freeCount_taken htop.here hd)
  · have htop : ∀ i d, OnTop (e.frame frame) p i d → d.track = none := fun i d htop =>
      Classical.not_not.1 fun hd => hlabeled ⟨i, d, htop, hd⟩
    obtain ⟨next, ended, number, hclick, hgoes⟩ :=
      exists_goesOn h (unlabelAt_of_no_labeled hhit htop)
    rw [hclick]
    cases hnearest : e.nearestUnlabeled? frame p with
    | none =>
      have hassign : e.assignNearest frame p = (none, e) := by rw [assignNearest, hnearest]
      rw [hassign] at hgoes ⊢
      refine .none htop (fun ⟨d, hd, hfree⟩ => ?_) rfl rfl rfl hgoes
      exact no_free_of_no_nearest hnearest d hd hfree
    | some index =>
      have hassign : e.assignNearest frame p =
          (some index, e.setTrack frame index (some e.next)) := by rw [assignNearest, hnearest]
      obtain ⟨d, hd⟩ := nearest_of_nearestUnlabeled hnearest
      have hset := retracked_setTrack e frame index (some e.next)
      rw [hassign] at hgoes ⊢
      exact .put htop hd ⟨hset.changed, hset.others, hset.frames, rfl, rfl⟩ hgoes
        (freeCount_put hd.here hd.free e.next)

/-- A click computes nothing that does not fit if the frame has no detection that is too large,
and neither the frame nor the track has the greatest number. -/
theorem clickFits_of_fits (hsizes : ∀ d ∈ e.frame frame, d.sizeFits = true)
    (hframe : frame < 18446744073709551615) (hnumber : e.numberFits = true) :
    e.clickFits frame p = true := by
  have hhit : e.hitFits frame p = true :=
    List.all_eq_true.2 fun d hd => hsizes d (List.mem_of_mem_drop hd)
  have hindex : isUInt64 ((frame : Int) + 1) = true := isUInt64_iff.2 hframe
  rw [clickFits, hhit, Bool.true_and]
  split
  · rfl
  · rw [hindex, hnumber, Bool.or_true, Bool.and_true]

/-- Each of two frames has one detection. A click on the first one puts it on track 1, which goes on
in the second frame. -/
theorem clicked_first :
    let e : TrackEngine := ⟨[[.plain 0 0 9 9], [.plain 0 0 9 9]], none, 1, false⟩
    let p : Point ℝ := ⟨5, 5⟩
    e.clickFits 0 p = true ∧ (e.click 0 p).1 = .assigned (some 0) 1 false ∧
      (e.click 0 p).2.frame 0 = [{ Detection.plain 0 0 9 9 with track := some 1 }] ∧
      (e.click 0 p).2.next = 1 := by
  intro e p
  have hfits : e.clickFits 0 p = true := clickFits_of_fits (by decide) (by decide) (by decide)
  have hfree : ∀ (k : Nat) (d : Detection), (e.frame 0)[k]? = some d →
      k = 0 ∧ d = .plain 0 0 9 9 := by
    intro k d hk
    match k, hk with
    | 0, hk => exact ⟨rfl, (Option.some.inj hk).symm⟩
  refine ⟨hfits, ?_⟩
  have hclicked := clicked hfits
  generalize (e.click 0 p).1 = result at hclicked ⊢
  generalize (e.click 0 p).2 = e' at hclicked ⊢
  cases hclicked with
  | taken top labeled =>
    obtain ⟨-, rfl⟩ := hfree _ _ top.here
    exact absurd rfl labeled
  | none _ full => exact absurd ⟨_, List.mem_singleton_self _, rfl⟩ full
  | @put index d _ next ended _ nearest changed goesOn =>
    obtain ⟨rfl, rfl⟩ := hfree _ _ nearest.here
    have hframes : e'.frames = (e.setTrack 0 0 (some 1)).frames :=
      changed.frames_unique (retracked_setTrack ..)
    have hsecond : HasFree e'.frames 1 := by
      rw [hframes]
      exact ⟨_, List.mem_singleton_self _, rfl⟩
    match ended, goesOn with
    | false, ⟨hnext, hleast⟩ =>
      have hone : next = 1 := Nat.le_antisymm (hleast.2 ⟨Nat.zero_lt_one, hsecond⟩) hleast.1.1
      exact ⟨by rw [hone], by rw [TrackEngine.frame, hframes]; rfl, hnext⟩
    | true, ⟨_, hno, _⟩ => exact absurd hsecond (hno 1 Nat.zero_lt_one)

/-! ## Limits -/

/-- A detection on a track, with its left and its right side as far apart as they can be. -/
def farApart : Detection :=
  { Detection.plain (-9223372036854775808) 0 9223372036854775807 9 with track := some 1 }

/-- Its width wraps around to that of a rectangle one pixel to the left of its left side. -/
theorem isOn_farApart : isOn farApart (⟨0, 5⟩ : Point ℝ) = false := by
  have hrect : (farApart.rect : Rect ℝ) = ⟨-9223372036854775808, 0, -1, 9⟩ := by
    have hwidth : wrapInt64 (farApart.right - farApart.left) = -1 := by decide
    have hheight : wrapInt64 (farApart.bottom - farApart.top) = 9 := by decide
    rw [Detection.rect, hwidth, hheight]
    simp [farApart, Detection.plain, Scalar.ofInt]
  rw [← Bool.not_eq_true, isOn_iff_rect hrect]
  rintro (⟨hx, -⟩ | ⟨q, hq, hdistance⟩)
  · rw [Rect.bottomRight, Set.mem_uIcc] at hx
    norm_num at hx
  · have hx := Set.mem_uIcc.1 (Point.x_mem_uIcc_of_outline hq)
    norm_num [Rect.topLeft, Rect.bottomRight] at hx
    have hfar : 0 - q.x ≤ Style.strokeWidth / 2 :=
      (le_abs_self _).trans ((Point.abs_sub_le_distance _ q).trans hdistance)
    norm_num [Style.strokeWidth] at hfar
    rcases hx with hx | hx <;> linarith

theorem onTop_farApart : OnTop [farApart] ⟨0, 5⟩ 0 farApart := by
  refine ⟨rfl, Or.inl ⟨?_, ?_⟩, fun k d' hk _ => ?_⟩
  · rw [Set.mem_uIcc]
    norm_num [farApart, Detection.plain]
  · rw [Set.mem_uIcc]
    norm_num [farApart, Detection.plain]
  · exact Nat.le_of_lt_succ (List.getElem?_eq_some_iff.1 hk).1

/-- A click goes wrong where something does not fit. The number after the greatest one is the
least. The sides of a detection may be so far apart that its size wraps around, and it is not found
where it is. After the greatest index of a frame, the next one is looked for from the first frame
on. -/
theorem clicked_wraps :
    let last : TrackEngine := ⟨[[]], none, 9223372036854775807, false⟩
    let wide : TrackEngine := ⟨[[farApart]], none, 2, false⟩
    let free : TrackEngine := ⟨[[.plain 0 0 9 9]], none, 1, false⟩
    let p : Point ℝ := ⟨0, 5⟩
    ¬ Clicked last 0 p (last.click 0 p).1 (last.click 0 p).2 ∧
      ¬ Clicked wide 0 p (wide.click 0 p).1 (wide.click 0 p).2 ∧
      ¬ Clicked free 18446744073709551615 p (free.click 18446744073709551615 p).1
        (free.click 18446744073709551615 p).2 := by
  intro last wide free p
  refine ⟨fun h => ?_, fun h => ?_, fun h => ?_⟩
  · have hclick : last.click 0 p =
        (.assigned none 0 true, { last with next := -9223372036854775808 }) := rfl
    rw [hclick] at h
    cases h with
    | none _ _ _ _ _ goesOn => exact absurd goesOn.1 (by decide)
  · have hhit : wide.hit? 0 p = none :=
      topmost?_eq_none_iff.2 (List.forall_mem_singleton.2 isOn_farApart)
    have hunlabel : wide.unlabelAt 0 p = (none, wide) := by rw [unlabelAt, hhit]
    have hclick : wide.click 0 p = (.assigned none 0 true, { wide with next := 3 }) := by
      rw [click, hunlabel]
      rfl
    rw [hclick] at h
    cases h with
    | none top => cases top 0 farApart onTop_farApart
  · have hclick : free.click 18446744073709551615 p = (.assigned none 0 false, free) := rfl
    rw [hclick] at h
    cases h with
    | none _ _ _ _ _ goesOn => exact absurd goesOn.2.1.1 (by decide)

end TrackEngine

end Labeling
