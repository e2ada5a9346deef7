import Mathlib.Algebra.Group.Nat.Defs
import Labeling.Proofs.Tool.TrackFrames
import Labeling.Proofs.Tracking.Numbers

/-!
# One object in each frame of a track

A track follows one object, so it has at most one detection in each frame. Labeling keeps it so
(`Labeler.nodup_run`): a click that puts a detection on the track goes on to a later frame, and
the track is ended before labeling goes back. What carries this through a run is that no frame
from the one on that is being labeled has a detection of the track (`Labeler.Distinct.ahead`).

It depends on the next track having a number of its own. After the greatest number comes the least,
and a frame that has a detection on that may get a second one (`Labeler.nodup_run_wraps`).
-/

namespace Labeling

/-- What is done to label: each click is on the frame to which the one before it led. -/
inductive LabelStep (α : Type) where
  | click (p : Point α)
  | endTrack

/-- The operation of a step on a frame. -/
def LabelStep.op {α : Type} (frame : Nat) : LabelStep α → TrackOp α
  | .click p => .click frame p
  | .endTrack => .endTrack

/-- The engine and the frame that is being labeled. -/
structure Labeler where
  engine : TrackEngine
  frame : Nat

namespace TrackEngine

variable {e : TrackEngine}

/-- The detections of each frame are on different tracks. -/
def OnePerFrame (e : TrackEngine) : Prop :=
  ∀ ds ∈ e.frames, (ds.filterMap Detection.track).Nodup

/-- No detection of a frame is on a track. -/
def Lacks (e : TrackEngine) (frame : Nat) (t : Int) : Prop := ∀ d ∈ e.frame frame, d.track ≠ some t

/-- A frame that does not exist has no detection to put on the track. -/
theorem assignNearest_of_length_le {α : Type} [Scalar α] {frame : Nat}
    (h : e.frames.length ≤ frame) (p : Point α) : e.assignNearest frame p = (none, e) := by
  have hframe : e.frame frame = [] := by
    rw [TrackEngine.frame, List.getElem?_eq_none h, Option.getD_none]
  have hnone : e.nearestUnlabeled? frame p = none := by
    rw [nearestUnlabeled?, hframe]
    rfl
  rw [assignNearest, hnone]

theorem Lacks.of_unused {t : Int} (h : t ∉ tracks e.frames) (frame : Nat) : e.Lacks frame t := by
  intro d hd ht
  unfold TrackEngine.frame at hd
  cases hds : e.frames[frame]? with
  | none =>
    rw [hds] at hd
    cases hd
  | some ds =>
    rw [hds] at hd
    exact h (mem_tracks.2 ⟨ds, List.mem_of_getElem? hds, d, hd, ht⟩)

/-- A change of one detection's track leaves the others of its frame on different tracks, and it
is on a track of its own if the others were not on that. -/
theorem nodup_modify_track {track : Option Int} :
    ∀ {ds : List Detection} (index : Nat), (ds.filterMap Detection.track).Nodup →
      (∀ d ∈ ds, ∀ t, track = some t → d.track ≠ some t) →
      ((ds.modify index fun d => { d with track }).filterMap Detection.track).Nodup := by
  intro ds
  induction ds with
  | nil => exact fun index h _ => by cases index <;> exact h
  | cons d rest ih =>
    intro index h hnew
    have hnewRest := fun d' hd' => hnew d' (List.mem_cons_of_mem d hd')
    have hrest : (rest.filterMap Detection.track).Nodup :=
      h.sublist ((List.sublist_cons_self d rest).filterMap _)
    cases index with
    | zero =>
      rw [List.modify_zero_cons]
      cases ht : track with
      | none => exact hrest
      | some t =>
        change (t :: rest.filterMap Detection.track).Nodup
        refine List.nodup_cons.2 ⟨fun hmem => ?_, hrest⟩
        obtain ⟨d', hd', ht'⟩ := List.mem_filterMap.1 hmem
        exact hnewRest d' hd' t ht ht'
    | succ index =>
      rw [List.modify_succ_cons]
      have ih' := ih index hrest hnewRest
      cases ht : d.track with
      | none => rwa [List.filterMap_cons_none ht]
      | some t =>
        rw [List.filterMap_cons_some ht] at h ⊢
        refine List.nodup_cons.2 ⟨fun hmem => ?_, ih'⟩
        obtain ⟨d', hd', ht'⟩ := List.mem_filterMap.1 hmem
        rcases mem_modify hd' with hd' | ⟨x, -, rfl⟩
        · exact (List.nodup_cons.1 h).1 (List.mem_filterMap.2 ⟨d', hd', ht'⟩)
        · exact hnew d (List.mem_cons_self ..) t ht' ht

theorem OnePerFrame.setTrack (h : e.OnePerFrame) {frame index : Nat} {track : Option Int}
    (hnew : ∀ t, track = some t → e.Lacks frame t) :
    (e.setTrack frame index track).OnePerFrame := by
  intro ds hds
  rcases mem_modify hds with hds | ⟨ds', hds', rfl⟩
  · exact h ds hds
  · have hframe : e.frame frame = ds' := by rw [TrackEngine.frame, hds']; rfl
    refine nodup_modify_track index (h ds' (List.mem_of_getElem? hds')) fun d hd t ht => ?_
    exact hnew t ht d (hframe ▸ hd)

/-- A frame has detections of a track after a change of one detection's track only if it had them
before, or is the frame of that detection, which was put on it. -/
theorem Lacks.setTrack {t : Int} {k : Nat} (h : e.Lacks k t) {frame index : Nat}
    {track : Option Int} (hnew : track ≠ some t ∨ frame ≠ k) :
    (e.setTrack frame index track).Lacks k t := by
  intro d hd ht
  rw [frame_setTrack] at hd
  split at hd
  · rename_i hk
    rcases mem_modify hd with hd | ⟨d', -, rfl⟩
    · exact h d hd ht
    · exact hnew.elim (fun hne => hne ht) fun hne => hne hk
  · exact h d hd ht

end TrackEngine

namespace Labeler

open TrackEngine

variable {α : Type} [Scalar α] {l : Labeler}

/-- One step: the click tells on which frame to go on, and so does the end of a track while
there is something left to label. -/
def step (l : Labeler) : LabelStep α → Labeler
  | .click p =>
    match l.engine.click l.frame p with
    | (.unlabeled _, e) => ⟨e, l.frame⟩
    | (.assigned _ next _, e) => ⟨e, next⟩
  | .endTrack => ⟨l.engine.endTrack.2, l.engine.endTrack.1.getD l.frame⟩

/-- Some steps, one after the other. -/
def run (l : Labeler) (steps : List (LabelStep α)) : Labeler := steps.foldl step l

/-- There is a number for each track that some steps begin. -/
def HasRoomFor (l : Labeler) : List (LabelStep α) → Prop
  | [] => True
  | s :: rest => l.engine.HasRoom (s.op l.frame) ∧ (l.step s).HasRoomFor rest

/-- What labeling keeps. -/
structure Distinct (l : Labeler) : Prop where
  /-- The frames are counted by a 64-bit number. -/
  size : l.engine.frames.length < 2 ^ 64
  onePerFrame : l.engine.OnePerFrame
  used : ∀ t ∈ tracks l.engine.frames, t ≤ l.engine.next
  /-- From the frame on that is being labeled none has a detection of the track. If there is no
  such frame, then no frame has one. -/
  ahead : ∀ k, l.frame ≤ k ∨ l.engine.frames.length ≤ l.frame → l.engine.Lacks k l.engine.next

/-- Where the number of the track is above all in use, labeling can go on from any frame. -/
theorem Distinct.of_unused {e : TrackEngine} (hlen : e.frames.length < 2 ^ 64)
    (h : e.OnePerFrame) (hlt : ∀ t ∈ tracks e.frames, t < e.next) (frame : Nat) :
    Distinct ⟨e, frame⟩ where
  size := hlen
  onePerFrame := h
  used t ht := Int.le_of_lt (hlt t ht)
  ahead k _ := Lacks.of_unused (fun hmem => Int.lt_irrefl _ (hlt _ hmem)) k

/-- It is so after a track was ended on a number that is not below those in use. -/
theorem Distinct.of_endTrack {e : TrackEngine} (hlen : e.frames.length < 2 ^ 64)
    (h : e.OnePerFrame) (hused : ∀ t ∈ tracks e.frames, t ≤ e.next)
    (hfits : e.numberFits = true) (frame : Nat) : Distinct ⟨e.endTrack.2, frame⟩ := by
  refine .of_unused (e := e.endTrack.2) hlen h (fun t ht => ?_) frame
  have hle := hused t ht
  show t < following e.next
  rw [following_eq hfits]
  omega

/-- The nearest detection was put on the track. -/
theorem Distinct.assigned (h : l.Distinct) (p : Point α) :
    let e := (l.engine.assignNearest l.frame p).2
    e.OnePerFrame ∧ ∀ t ∈ tracks e.frames, t ≤ e.next := by
  intro e
  rcases l.engine.assignNearest_cases l.frame p with hcase | ⟨index, hcase⟩ <;>
    simp only [e, hcase]
  · exact ⟨h.onePerFrame, h.used⟩
  · refine ⟨h.onePerFrame.setTrack fun t ht => ?_, fun t ht => ?_⟩
    · obtain rfl := Option.some.inj ht
      exact h.ahead l.frame (Or.inl (Nat.le_refl _))
    · rcases mem_tracks_setTrack ht with ht | ht
      · exact h.used t ht
      · exact Int.le_of_eq (Option.some.inj ht).symm

/-- Labeling can go on from any later frame, and from any frame at all if the one that was clicked
does not exist. -/
theorem Distinct.assignNearest (h : l.Distinct) (p : Point α) {next : Nat}
    (hnext : next < l.engine.frames.length)
    (hlater : l.frame < next ∨ l.engine.frames.length ≤ l.frame) :
    Distinct ⟨(l.engine.assignNearest l.frame p).2, next⟩ := by
  obtain ⟨hone, hused⟩ := h.assigned p
  have hlen := l.engine.length_assignNearest l.frame p
  refine ⟨hlen ▸ h.size, hone, hused, fun k hk => ?_⟩
  change next ≤ k ∨ (l.engine.assignNearest l.frame p).2.frames.length ≤ next at hk
  have hk : next ≤ k := hk.resolve_right (by omega)
  rcases hlater with hlater | hout
  · have hahead := h.ahead k (Or.inl (by omega))
    rcases l.engine.assignNearest_cases l.frame p with hcase | ⟨index, hcase⟩ <;> rw [hcase]
    · exact hahead
    · exact hahead.setTrack (Or.inr (by omega))
  · rw [assignNearest_of_length_le hout]
    exact h.ahead k (Or.inr hout)

theorem Distinct.step (h : l.Distinct) {s : LabelStep α}
    (hroom : l.engine.HasRoom (s.op l.frame)) : (l.step s).Distinct := by
  cases s with
  | endTrack => exact .of_endTrack h.size h.onePerFrame h.used (hroom trivial) _
  | click p =>
    have hlen := l.engine.length_assignNearest l.frame p
    unfold Labeler.step
    rcases l.engine.click_cases l.frame p with
      ⟨index, hcase⟩ | ⟨next, hnext, hcase⟩ | ⟨-, hcase⟩ <;> simp only [hcase]
    · have hsize := l.engine.length_setTrack l.frame index none
      refine ⟨hsize ▸ h.size, h.onePerFrame.setTrack (fun t ht => by cases ht), fun t ht => ?_,
        fun k hk => ?_⟩
      · exact h.used t ((mem_tracks_setTrack ht).resolve_right fun he => by cases he)
      · exact (h.ahead k (by rwa [hsize] at hk)).setTrack (Or.inl (by simp))
    · obtain ⟨hstart, hlt⟩ := unlabeledFrameFrom?_lt hnext
      rw [hlen] at hlt
      refine h.assignNearest p hlt ?_
      by_cases hin : l.frame < l.engine.frames.length
      · have hsize := h.size
        rw [wrapUInt64_of_isUInt64 (isUInt64_iff.2 (by omega))] at hstart
        exact Or.inl hstart
      · exact Or.inr (Nat.not_lt.1 hin)
    · obtain ⟨hone, hused⟩ := h.assigned p
      have hfits : (l.engine.assignNearest l.frame p).2.numberFits = true := by
        rw [numberFits, l.engine.assignNearest_next]
        exact hroom ⟨_, _, congrArg Prod.fst hcase⟩
      exact .of_endTrack (hlen ▸ h.size) hone hused hfits _

/-- While the detections of each frame are on different tracks, all numbered below that of the
track that is to be labeled, labeling from any frame, by any clicks and ends of tracks, leaves the
detections of each frame on different tracks, as long as no track is ended on the greatest
number. -/
theorem nodup_run {e : TrackEngine} (hlen : e.frames.length < 2 ^ 64)
    (h : ∀ ds ∈ e.frames, (ds.filterMap Detection.track).Nodup)
    (hlt : ∀ t ∈ tracks e.frames, t < e.next) (frame : Nat) {steps : List (LabelStep α)}
    (hroom : HasRoomFor ⟨e, frame⟩ steps) :
    ∀ ds ∈ (Labeler.run ⟨e, frame⟩ steps).engine.frames,
      (ds.filterMap Detection.track).Nodup := by
  have hrun : ∀ (steps : List (LabelStep α)) (l : Labeler), l.Distinct → l.HasRoomFor steps →
      (l.run steps).Distinct := by
    intro steps
    induction steps with
    | nil => exact fun l hl _ => hl
    | cons s rest ih => exact fun l hl hr => ih (l.step s) (hl.step hr.1) hr.2
  exact (hrun steps _ (.of_unused hlen h hlt frame) hroom).onePerFrame

/-- Three detections over two frames, of which the first frame has two: the first click is on one
of these, the second is on the next frame and ends the track, and the third is on the first frame
again and begins track 2. -/
theorem nodup_run_clicks :
    let e : TrackEngine :=
      ⟨[[.plain 0 0 9 9, .plain 50 50 59 59], [.plain 0 0 9 9]], none, 1, false⟩
    let steps : List (LabelStep Float) := [.click ⟨0, 0⟩, .click ⟨0, 0⟩, .click ⟨50, 50⟩]
    (∀ ds ∈ e.frames, (ds.filterMap Detection.track).Nodup) ∧ (∀ t ∈ tracks e.frames, t < e.next) ∧
      HasRoomFor ⟨e, 0⟩ steps ∧
      (Labeler.run ⟨e, 0⟩ steps).engine.frames.map (·.filterMap Detection.track) = [[1, 2], [1]] ∧
      ∀ ds ∈ (Labeler.run ⟨e, 0⟩ steps).engine.frames, (ds.filterMap Detection.track).Nodup := by
  intro e steps
  have h : ∀ ds ∈ e.frames, (ds.filterMap Detection.track).Nodup := by decide +kernel
  have hlt : ∀ t ∈ tracks e.frames, t < e.next := by decide +kernel
  have hroom : HasRoomFor ⟨e, 0⟩ steps :=
    ⟨fun _ => by decide +kernel, fun _ => by decide +kernel, fun _ => by decide +kernel, trivial⟩
  exact ⟨h, hlt, hroom, by decide +kernel, nodup_run (by decide) h hlt 0 hroom⟩

/-- Stored tracks with the least number and the greatest but one are loaded for an item of one
frame, with two more detections. The first click puts one of these on the greatest number and ends
its track, and the second click puts the other one on the least number, like the one that was
stored. -/
theorem nodup_run_wraps :
    let stored (left : Int) (track : Int) : Detection :=
      { Detection.plain left 0 (left + 9) 9 with track := some track }
    let e := ((reset 1).applyStored [[stored 0 9223372036854775806,
      stored 20 (-9223372036854775808), .plain 40 0 49 9, .plain 60 0 69 9]] none).2
    let steps : List (LabelStep Float) := [.click ⟨45, 5⟩, .click ⟨65, 5⟩]
    (∀ ds ∈ e.frames, (ds.filterMap Detection.track).Nodup) ∧ (∀ t ∈ tracks e.frames, t < e.next) ∧
      (Labeler.run ⟨e, 0⟩ steps).engine.frames.map (·.filterMap Detection.track) =
        [[9223372036854775806, -9223372036854775808, 9223372036854775807, -9223372036854775808]] ∧
      ¬ ∀ ds ∈ (Labeler.run ⟨e, 0⟩ steps).engine.frames, (ds.filterMap Detection.track).Nodup := by
  intro stored e steps
  exact ⟨by decide +kernel, by decide +kernel, by decide +kernel, by decide +kernel⟩

end Labeler

end Labeling
