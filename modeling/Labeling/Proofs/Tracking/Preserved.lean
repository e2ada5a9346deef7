import Labeling.Proofs.Tracking.Numbers
import Labeling.Proofs.Tracking.Stored

/-!
# What labeling leaves of the detections

Labeling by hand puts detections on tracks and takes them off, and does no other thing to them:
after some operations each detection is at its place as it was, on the track to which the operations
led it there (`TrackEngine.performAll_frames`). Where that is follows from what the operations
answer, place by place (`TrackEngine.trackAfter`).

Together with the way in which detections are stored, this says what is handed in for a payload of
computed or stored detections: the payload itself, with the tracks that were given
(`TrackEngine.data_of_labeled`). A frame that is `null` is handed in as an empty list. This holds
whichever the numbers are, also where they begin anew after the greatest one.
-/

namespace Labeling

/-! ## Labeling by hand -/

namespace TrackOp

variable {α : Type}

/-- What is done by hand: labeling, but no load. -/
def ByHand : TrackOp α → Prop
  | .click _ _ => True
  | .assignNearest _ _ => True
  | .unlabelAt _ _ => True
  | .endTrack => True
  | _ => False

end TrackOp

namespace TrackEngine

variable {α : Type} [Scalar α] {e : TrackEngine} {frames : List (List Detection)}

/-- The place of the detection that an operation says to have taken off its track. -/
def takenOff? (e : TrackEngine) : TrackOp α → Option (Nat × Nat)
  | .click frame p =>
    match (e.click frame p).1 with
    | .unlabeled index => some (frame, index)
    | _ => none
  | .unlabelAt frame p => (e.unlabelAt frame p).1.map fun index => (frame, index)
  | _ => none

/-- The track of the detection at a place after an operation: the one that is being labeled if the
operation put it there, none if it was taken off, and else the same as before. -/
def trackAfter (e : TrackEngine) (op : TrackOp α) (place : Nat × Nat) (track : Option Int) :
    Option Int :=
  if e.labeled? op = some place then some e.next
  else if e.takenOff? op = some place then none
  else track

/-- The track of the detection at a place after some operations. -/
def trackAfterAll : TrackEngine → List (TrackOp α) → Nat × Nat → Option Int → Option Int
  | _, [], _, track => track
  | e, op :: rest, place, track =>
    (e.perform op).trackAfterAll rest place (e.trackAfter op place track)

/-- The same detections, each on the track that its place and the track before lead to. -/
def withTracks (frames : List (List Detection)) (track : Nat × Nat → Option Int → Option Int) :
    List (List Detection) :=
  frames.mapIdx fun k ds => ds.mapIdx fun j d => { d with track := track (k, j) d.track }

theorem withTracks_same (frames : List (List Detection)) :
    withTracks frames (fun _ track => track) = frames := by
  simp only [withTracks, mapIdx_same]

theorem withTracks_withTracks (frames : List (List Detection))
    (first second : Nat × Nat → Option Int → Option Int) :
    withTracks (withTracks frames first) second =
      withTracks frames fun place track => second place (first place track) := by
  simp only [withTracks, List.mapIdx_mapIdx, Function.comp_def]

theorem setTrack_frames (e : TrackEngine) (frame index : Nat) (track : Option Int) :
    (e.setTrack frame index track).frames =
      withTracks e.frames fun place t => if place = (frame, index) then track else t := by
  show e.frames.modify frame _ = _
  rw [modify_eq_mapIdx]
  refine congrArg (e.frames.mapIdx ·) (funext fun k => funext fun ds => ?_)
  by_cases hk : k = frame
  · rw [if_pos hk, modify_eq_mapIdx]
    refine congrArg (ds.mapIdx ·) (funext fun j => funext fun d => ?_)
    by_cases hj : j = index <;> simp [hk, hj]
  · simp [hk, mapIdx_same]

theorem withTracks_of_labeled {op : TrackOp α} {frame index : Nat}
    (hl : e.labeled? op = some (frame, index)) (ht : e.takenOff? op = none) :
    withTracks e.frames (e.trackAfter op) = (e.setTrack frame index (some e.next)).frames := by
  rw [setTrack_frames]
  refine congrArg (withTracks e.frames) (funext fun place => funext fun track => ?_)
  simp [trackAfter, hl, ht, eq_comm]

theorem withTracks_of_takenOff {op : TrackOp α} {frame index : Nat} (hl : e.labeled? op = none)
    (ht : e.takenOff? op = some (frame, index)) :
    withTracks e.frames (e.trackAfter op) = (e.setTrack frame index none).frames := by
  rw [setTrack_frames]
  refine congrArg (withTracks e.frames) (funext fun place => funext fun track => ?_)
  simp [trackAfter, hl, ht, eq_comm]

theorem withTracks_of_neither {op : TrackOp α} (hl : e.labeled? op = none)
    (ht : e.takenOff? op = none) : withTracks e.frames (e.trackAfter op) = e.frames := by
  refine Eq.trans ?_ (withTracks_same e.frames)
  refine congrArg (withTracks e.frames) (funext fun place => funext fun track => ?_)
  simp [trackAfter, hl, ht]

/-- What is done by hand puts detections on tracks and takes them off, and does no other thing to
them. -/
theorem perform_frames {op : TrackOp α} (h : op.ByHand) :
    (e.perform op).frames = withTracks e.frames (e.trackAfter op) := by
  cases op with
  | endTrack =>
    have htaken : e.takenOff? (.endTrack : TrackOp α) = none := rfl
    exact (withTracks_of_neither rfl htaken).symm
  | assignNearest frame p =>
    show (e.assignNearest frame p).2.frames = _
    rcases e.assignNearest_cases frame p with hcase | ⟨index, hcase⟩
    · rw [hcase, withTracks_of_neither (by simp [labeled?, hcase]) rfl]
    · have hlabeled : e.labeled? (.assignNearest frame p) = some (frame, index) := by
        simp [labeled?, hcase]
      rw [hcase, withTracks_of_labeled hlabeled rfl]
  | unlabelAt frame p =>
    show (e.unlabelAt frame p).2.frames = _
    rcases e.unlabelAt_cases frame p with hcase | ⟨index, hcase⟩
    · rw [hcase, withTracks_of_neither rfl (by simp [takenOff?, hcase])]
    · have htaken : e.takenOff? (.unlabelAt frame p) = some (frame, index) := by
        simp [takenOff?, hcase]
      rw [hcase, withTracks_of_takenOff rfl htaken]
  | click frame p =>
    show (e.click frame p).2.frames = _
    have hassigned : ∀ {next ended} {e' : TrackEngine},
        e.click frame p = (.assigned (e.assignNearest frame p).1 next ended, e') →
          (e.assignNearest frame p).2.frames =
            withTracks e.frames (e.trackAfter (.click frame p)) := by
      intro next ended e' hclick
      have hlabeled := labeled?_click_assigned hclick
      have htaken : e.takenOff? (.click frame p) = none := by simp [takenOff?, hclick]
      rcases e.assignNearest_cases frame p with hcase | ⟨index, hcase⟩
      · rw [hcase] at hlabeled ⊢
        rw [withTracks_of_neither hlabeled htaken]
      · rw [hcase] at hlabeled ⊢
        rw [withTracks_of_labeled hlabeled htaken]
    rcases e.click_cases frame p with ⟨index, hcase⟩ | ⟨next, -, hcase⟩ | ⟨-, hcase⟩
    · have htaken : e.takenOff? (.click frame p) = some (frame, index) := by
        simp [takenOff?, hcase]
      rw [hcase, withTracks_of_takenOff (labeled?_click_unlabeled hcase) htaken]
    · rw [← hassigned hcase, hcase]
    · rw [← hassigned hcase, hcase]
      rfl
  | _ => exact h.elim

theorem performAll_frames {ops : List (TrackOp α)} (hops : ∀ op ∈ ops, op.ByHand) :
    ∀ e : TrackEngine, (e.performAll ops).frames = withTracks e.frames (e.trackAfterAll ops) := by
  induction ops with
  | nil => exact fun e => (withTracks_same e.frames).symm
  | cons op rest ih =>
    intro e
    show ((e.perform op).performAll rest).frames = _
    rw [ih (fun o ho => hops o (List.mem_cons_of_mem _ ho)),
      perform_frames (hops op (List.mem_cons_self ..)), withTracks_withTracks]
    rfl

/-! ## Handing in what was labeled -/

/-- An operation by which an engine takes over some detections: computed ones, for as many frames
as it has and as long as no stored ones were loaded, or stored ones, unless they are for no
frame. -/
inductive Installs (e : TrackEngine) (frames : List (List Detection)) : TrackOp α → Prop where
  | fresh (size : e.frames.length = frames.length) (free : e.hasStored = false) :
      Installs e frames (.applyFresh frames)
  | stored (some : frames ≠ []) (metadata : Option Json) :
      Installs e frames (.applyStored frames metadata)

theorem Installs.frames_eq {load : TrackOp α} (h : e.Installs frames load) :
    (e.perform load).frames = frames := by
  cases h with
  | fresh size free =>
    show (e.applyFresh frames).2.frames = frames
    simp [applyFresh, free, resized, size]
  | stored some metadata => rw [perform_stored some]

/-- A payload that is read and put on other tracks is stored as the payload on these tracks. -/
theorem toJson_withTracks {data : Json} (h : detectionFrames? data = some frames)
    (track : Nat × Nat → Option Int → Option Int) :
    detectionFramesToJson (withTracks frames track) =
      .arr (data.items.mapIdx fun k frame => .arr (frame.items.mapIdx fun j v =>
        Detection.onTrack (track (k, j) (Detection.givenTrack v)) v)) := by
  unfold detectionFrames? at h
  obtain ⟨read, hread, h⟩ := Option.bind_eq_some_iff.1 h
  cases h
  unfold Json.listOf at hread
  obtain ⟨items, hitems, hread⟩ := Option.bind_eq_some_iff.1 hread
  have hdata : data.items = items := by rw [Json.items, hitems, Option.getD_some]
  rw [hdata]
  unfold detectionFramesToJson withTracks
  simp only [map_eq_mapIdx, List.mapIdx_mapIdx]
  refine congrArg Json.arr (mapIdx_of_mapM (fun k frame ds hds => ?_) hread)
  have hitem : ∀ j v d, Detection.read? v = some d →
      ({ d with track := track (k, j) d.track } : Detection).toJson =
        Detection.onTrack (track (k, j) (Detection.givenTrack v)) v :=
    fun j v d hd => Detection.toJson_of_read? hd (track (k, j))
  simp only [Function.comp_apply, List.mapIdx_mapIdx]
  exact congrArg Json.arr (mapIdx_of_mapM hitem (Json.mapM_items_of_nullable hds))

/-- What is handed in after labeling by hand is the payload that was taken over, frame by frame and
object by object, with the tracks to which labeling led. -/
theorem data_of_labeled {data : Json} (hread : detectionFrames? data = some frames)
    {load : TrackOp α} (hload : e.Installs frames load) {ops : List (TrackOp α)}
    (hops : ∀ op ∈ ops, op.ByHand) :
    let loaded := e.perform load
    (loaded.performAll ops).data =
      .arr (data.items.mapIdx fun k frame => .arr (frame.items.mapIdx fun j v =>
        Detection.onTrack (loaded.trackAfterAll ops (k, j) (Detection.givenTrack v)) v)) := by
  intro loaded
  have hframes : loaded.frames = frames := hload.frames_eq
  rw [← toJson_withTracks hread, ← hframes, ← performAll_frames hops]
  rfl

/-- A detection with a score comes with track 0 and without a category, and one with track 7; the
second frame is `null`. The click puts the first on track 1, and ends the track; the second is
taken off. Stored with the greatest number of all, a detection keeps it, and the click puts the
other one on track 1. -/
theorem data_of_labeled_clicks :
    let side (name : String) (n : Int) : String × Json := (name, .int n)
    let scored : Json := .object [side "Left" 0, side "Top" 0, side "Right" 9, side "Bottom" 9,
      side "TrackID" 0, ("Category", .null), ("Score", .float 0.9)]
    let tracked (track : Int) : Json := .object [side "Left" 100, side "Top" 100, side "Right" 109,
      side "Bottom" 109, side "TrackID" track, ("Parts", .arr [.null])]
    let data : Json := .arr [.arr [scored, tracked 7], .null]
    let ops : List (TrackOp Float) := [.click 0 ⟨5, 5⟩, .unlabelAt 0 ⟨105, 105⟩]
    let last : Json := .arr [.arr [scored, tracked 9223372036854775807]]
    ∃ frames stored, detectionFrames? data = some frames ∧ detectionFrames? last = some stored ∧
      (((reset 2).applyFresh frames).2.performAll ops).data =
        .arr [.arr [Detection.onTrack (some 1) scored, Detection.onTrack none (tracked 7)],
          .arr []] ∧
      (((reset 1).applyStored stored none).2.performAll [.click 0 (⟨5, 5⟩ : Point Float)]).data =
        .arr [.arr [Detection.onTrack (some 1) scored,
          Detection.onTrack (some 9223372036854775807) (tracked 9223372036854775807)]] := by
  intro side scored tracked data ops last
  have hread : ∀ {v : Json}, (detectionFrames? v).isSome = true →
      detectionFrames? v = some ((detectionFrames? v).getD []) := by
    intro v h
    obtain ⟨frames, hv⟩ := Option.isSome_iff_exists.1 h
    rw [hv, Option.getD_some]
  have hdata := hread (v := data) (by decide +kernel)
  have hlast := hread (v := last) (by decide +kernel)
  let fresh : TrackOp Float := .applyFresh ((detectionFrames? data).getD [])
  let stored : TrackOp Float := .applyStored ((detectionFrames? last).getD []) none
  have hfresh : (reset 2).Installs ((detectionFrames? data).getD []) fresh :=
    .fresh (by decide +kernel) rfl
  have hstored : (reset 1).Installs ((detectionFrames? last).getD []) stored :=
    .stored (by decide +kernel) none
  have hops : ∀ op ∈ ops, op.ByHand := by simp [ops, TrackOp.ByHand]
  have hscored : ((reset 2).perform fresh).trackAfterAll ops (0, 0) (Detection.givenTrack scored) =
      some 1 := by decide +kernel
  have htracked : ((reset 2).perform fresh).trackAfterAll ops (0, 1)
      (Detection.givenTrack (tracked 7)) = none := by decide +kernel
  have hfirst : ((reset 1).perform stored).trackAfterAll [.click 0 (⟨5, 5⟩ : Point Float)] (0, 0)
      (Detection.givenTrack scored) = some 1 := by decide +kernel
  have hkept : ((reset 1).perform stored).trackAfterAll [.click 0 (⟨5, 5⟩ : Point Float)] (0, 1)
      (Detection.givenTrack (tracked 9223372036854775807)) = some 9223372036854775807 := by
    decide +kernel
  refine ⟨_, _, hdata, hlast, (data_of_labeled hdata hfresh hops).trans ?_,
    (data_of_labeled hlast hstored fun op hop => ?_).trans ?_⟩
  · rw [← hscored, ← htracked]
    rfl
  · rw [List.mem_singleton.1 hop]
    trivial
  · rw [← hfirst, ← hkept]
    rfl

end TrackEngine

end Labeling
