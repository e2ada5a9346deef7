import Labeling.Proofs.Tracking.Numbers

/-!
# Computed detections that come with tracks

Computed detections may be on tracks already. `TrackEngine.applyStored` goes on after the greatest
track it loads; `TrackEngine.applyFresh` leaves the number of the track as it is, which for an item
without stored detections is 1. So the numbers that labeling gives are counted from there, one
further for each track that was ended (`TrackEngine.number_of_computed`), and a detection that came
with such a number is from then on shown as the same object as one that was labeled by hand
(`TrackEngine.computed_track_shared`). Past the greatest number the count wraps around.
-/

namespace Labeling

namespace TrackEngine

variable {α : Type} [Scalar α] {e : TrackEngine}

/-- How many tracks an operation ends, which is one at most. -/
def ended (e : TrackEngine) : TrackOp α → Nat
  | .click frame p =>
    match (e.click frame p).1 with
    | .assigned _ _ true => 1
    | _ => 0
  | .endTrack => 1
  | _ => 0

/-- How many tracks some operations end. -/
def endedIn (e : TrackEngine) : List (TrackOp α) → Nat
  | [] => 0
  | op :: rest => e.ended op + (e.perform op).endedIn rest

theorem ended_of_ends {op : TrackOp α} (h : e.Ends op) : e.ended op = 1 := by
  cases op with
  | click frame p =>
    obtain ⟨detection, next, h⟩ := h
    simp only [ended, h]
  | endTrack => rfl
  | _ => exact h.elim

theorem ended_of_not_ends {op : TrackOp α} (h : ¬ e.Ends op) : e.ended op = 0 := by
  cases op with
  | click frame p =>
    show (match (e.click frame p).1 with | .assigned _ _ true => 1 | _ => 0) = 0
    split
    · rename_i detection next heq
      exact (h ⟨detection, next, heq⟩).elim
    · rfl
  | endTrack => exact (h trivial).elim
  | _ => rfl

theorem next_perform_eq {op : TrackOp α} (hl : ¬ op.Loads) :
    (e.perform op).next = following^[e.ended op] e.next := by
  rcases next_perform (e := e) hl with ⟨hno, hn⟩ | ⟨he, hn⟩
  · rw [hn, ended_of_not_ends hno]
    rfl
  · rw [hn, ended_of_ends he]
    rfl

/-- Between two loads the number of the track counts the tracks that were ended. -/
theorem next_performAll_eq {ops : List (TrackOp α)} (hops : ∀ op ∈ ops, ¬ op.Loads) :
    ∀ e : TrackEngine, (e.performAll ops).next = following^[e.endedIn ops] e.next := by
  induction ops with
  | nil => exact fun e => rfl
  | cons op rest ih =>
    intro e
    have hrest := ih (fun o ho => hops o (List.mem_cons_of_mem _ ho)) (e.perform op)
    rw [next_perform_eq (hops op (List.mem_cons_self ..)), ← Function.iterate_add_apply] at hrest
    rw [endedIn, Nat.add_comm]
    exact hrest

/-- Detections are computed for an item, on whatever tracks, and labeled without a load of stored
ones. What is put on a track then is put on the one numbered by how many tracks were ended so far,
counted from 1. While this does not reach the greatest number, it is on none of the tracks that came
with the computed detections, if the numbers of these are none of those from 1 up to the number
reached. -/
theorem number_of_computed (frameCount : Nat) (frames : List (List Detection)) :
    let e := ((reset frameCount).applyFresh frames).2
    ∀ before : List (TrackOp α), (∀ op ∈ before, ¬ op.Loads) → ∀ (op : TrackOp α) (number : Int),
      (e.performAll before).Labels op number →
        number = wrapInt64 (1 + e.endedIn before) ∧
        (1 + (e.endedIn before : Int) ≤ 9223372036854775807 →
          number = 1 + e.endedIn before ∧
          ((∀ t ∈ tracks frames, t < 1 ∨ 1 + (e.endedIn before : Int) < t) →
            number ∉ tracks frames)) := by
  intro e before hbefore op number h
  have hwrapped : number = wrapInt64 (1 + e.endedIn before) := by
    rw [h.eq_next, next_performAll_eq hbefore e, next_applyFresh]
    exact following_iterate rfl _
  refine ⟨hwrapped, fun hlast => ?_⟩
  have hnumber : number = 1 + e.endedIn before :=
    hwrapped.trans (wrapInt64_of_isInt64 (isInt64_iff.2 (by omega)))
  refine ⟨hnumber, fun hapart hin => ?_⟩
  have hside := hapart number hin
  omega

/-- A detection comes with track 7, and one on no track. This is put on track 1, and the click that
does so ends the track; after the one with track 7 was taken off, it is put on track 2. -/
theorem number_of_computed_clicks :
    let frames : List (List Detection) :=
      [[{ Detection.plain 0 0 9 9 with track := some 7 }, .plain 100 100 109 109]]
    let e := ((reset 1).applyFresh frames).2
    let label : TrackOp Float := .click 0 ⟨105, 105⟩
    let before : List (TrackOp Float) := [label, .click 0 ⟨5, 5⟩]
    let again : TrackOp Float := .click 0 ⟨50, 50⟩
    e.Labels label 1 ∧ (e.performAll before).Labels again 2 ∧ 2 ∉ tracks frames := by
  intro frames e label before again
  have hbefore : ∀ op ∈ before, ¬ op.Loads := by
    intro op hop
    simp only [before, label, List.mem_cons, List.not_mem_nil, or_false] at hop
    rcases hop with rfl | rfl <;> exact id
  have hagain : (e.performAll before).Labels again 2 :=
    ⟨0, 0, by decide +kernel, by decide +kernel⟩
  exact ⟨⟨0, 1, by decide +kernel, by decide +kernel⟩, hagain,
    ((number_of_computed 1 frames before hbefore again 2 hagain).2 (by decide +kernel)).2
      (by decide +kernel)⟩

/-- A payload of computed detections, of which one is on track 1, is read and taken. The click on
the other puts that on track 1 too. -/
theorem computed_track_shared :
    let side (name : String) (n : Int) : String × Json := (name, .int n)
    let data : Json := .arr [.arr [
      .object [side "Left" 0, side "Top" 0, side "Right" 9, side "Bottom" 9, side "TrackID" 1],
      .object [side "Left" 100, side "Top" 100, side "Right" 109, side "Bottom" 109]]]
    let click : TrackOp Float := .click 0 ⟨105, 105⟩
    ∃ frames, detectionFrames? data = some frames ∧ (1 : Int) ∈ tracks frames ∧
      ((reset 1).applyFresh frames).2.Labels click 1 := by
  intro side data click
  refine ⟨(detectionFrames? data).getD [], ?_, by decide +kernel,
    ⟨0, 1, by decide +kernel, by decide +kernel⟩⟩
  obtain ⟨frames, hread⟩ := Option.isSome_iff_exists.1
    (show (detectionFrames? data).isSome by decide +kernel)
  rw [hread]
  rfl

end TrackEngine

end Labeling
