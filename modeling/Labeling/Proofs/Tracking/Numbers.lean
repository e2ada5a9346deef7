import Mathlib.Logic.Function.Iterate
import Labeling.Tracking.Engine
import Labeling.Proofs.Frames

/-!
# Track numbers

The number of the track that is being labeled is never below the number of a track that is in
use (`TrackEngine.Numbered`), and right after a track was ended or stored tracks were loaded it is
above all of them. Only a load lowers it. So between two loads a number that was given up does not
come back, and what is labeled after a load is on none of the stored tracks
(`TrackEngine.number_unused`).

The number is a signed 64-bit integer, and after the greatest one it would begin anew with the
least. `TrackEngine.HasRoomFor` says of a run that this does not happen. It is so unless more tracks
are ended than there are numbers left above the stored ones (`TrackEngine.hasRoomFor_of_length`).

Stored detections for no frames are no load: they are ignored, and the number of the track that
is being labeled may be in use after them as before (`TrackEngine.number_reused`).
-/

namespace Labeling

/-- What can be done to the engine while one item is labeled. -/
inductive TrackOp (α : Type) where
  | applyFresh (frames : List (List Detection))
  | applyFreshMetadata (metadata : Json)
  | applyStored (frames : List (List Detection)) (metadata : Option Json)
  | click (frame : Nat) (p : Point α)
  | assignNearest (frame : Nat) (p : Point α)
  | unlabelAt (frame : Nat) (p : Point α)
  | endTrack

namespace TrackOp

variable {α : Type}

/-- What is computed for an item is on no track. -/
def Plain : TrackOp α → Prop
  | .applyFresh frames => ∀ ds ∈ frames, ∀ d ∈ ds, d.track = none
  | _ => True

/-- Stored detections take the place of all others, and of the numbers in use. -/
def Loads : TrackOp α → Prop
  | .applyStored frames _ => frames ≠ []
  | _ => False

/-- The stored tracks have numbers below a bound. -/
def StoresBelow (bound : Int) : TrackOp α → Prop
  | .applyStored frames _ => ∀ t ∈ TrackEngine.tracks frames, isInt64 t = true ∧ t < bound
  | _ => True

end TrackOp

namespace TrackEngine

variable {α : Type} [Scalar α] {e : TrackEngine}

/-! ## Operations -/

/-- Perform an operation. -/
def perform (e : TrackEngine) : TrackOp α → TrackEngine
  | .applyFresh frames => (e.applyFresh frames).2
  | .applyFreshMetadata metadata => (e.applyFreshMetadata metadata).2
  | .applyStored frames metadata => (e.applyStored frames metadata).2
  | .click frame p => (e.click frame p).2
  | .assignNearest frame p => (e.assignNearest frame p).2
  | .unlabelAt frame p => (e.unlabelAt frame p).2
  | .endTrack => e.endTrack.2

/-- Perform some operations, one after the other. -/
def performAll (e : TrackEngine) (ops : List (TrackOp α)) : TrackEngine := ops.foldl perform e

/-- An operation ends the track, as a click also does after the last detection on no track. -/
def Ends (e : TrackEngine) : TrackOp α → Prop
  | .click frame p => ∃ detection next, (e.click frame p).1 = .assigned detection next true
  | .endTrack => True
  | _ => False

/-- One of some operations ends the track. -/
def EndsIn (e : TrackEngine) : List (TrackOp α) → Prop
  | [] => False
  | op :: rest => e.Ends op ∨ (e.perform op).EndsIn rest

/-- If an operation ends the track, there is a number for the next one. -/
def HasRoom (e : TrackEngine) (op : TrackOp α) : Prop := e.Ends op → e.numberFits = true

/-- There is a number for each track that some operations begin. -/
def HasRoomFor (e : TrackEngine) : List (TrackOp α) → Prop
  | [] => True
  | op :: rest => e.HasRoom op ∧ (e.perform op).HasRoomFor rest

/-- The place of the detection that an operation says to have put on the track. -/
def labeled? (e : TrackEngine) : TrackOp α → Option (Nat × Nat)
  | .click frame p =>
    match (e.click frame p).1 with
    | .assigned (some index) _ _ => some (frame, index)
    | _ => none
  | .assignNearest frame p => (e.assignNearest frame p).1.map fun index => (frame, index)
  | _ => none

/-- An operation puts a detection on the track with a number. -/
def Labels (e : TrackEngine) (op : TrackOp α) (number : Int) : Prop :=
  ∃ frame index, e.labeled? op = some (frame, index) ∧
    ((e.perform op).frame frame)[index]?.bind Detection.track = some number

/-! ## What the operations do -/

theorem frame_setTrack (e : TrackEngine) (frame index : Nat) (track : Option Int) (k : Nat) :
    (e.setTrack frame index track).frame k =
      if frame = k then (e.frame k).modify index fun d => { d with track } else e.frame k := by
  unfold TrackEngine.frame setTrack
  split
  · rename_i h
    subst h
    rw [List.getElem?_modify_eq]
    cases e.frames[frame]? <;> simp
  · rename_i h
    rw [List.getElem?_modify_ne _ _ h]

/-- The nearest detection is put on the track, if there is one. -/
theorem assignNearest_cases (e : TrackEngine) (frame : Nat) (p : Point α) :
    e.assignNearest frame p = (none, e) ∨
      ∃ index, e.assignNearest frame p = (some index, e.setTrack frame index (some e.next)) := by
  unfold assignNearest
  split
  · exact Or.inl rfl
  · exact Or.inr ⟨_, rfl⟩

/-- The detection that is hit is taken off its track, if it is on one. -/
theorem unlabelAt_cases (e : TrackEngine) (frame : Nat) (p : Point α) :
    e.unlabelAt frame p = (none, e) ∨
      ∃ index, e.unlabelAt frame p = (some index, e.setTrack frame index none) := by
  unfold unlabelAt
  split
  · exact Or.inl rfl
  · split
    · split
      · exact Or.inr ⟨_, rfl⟩
      · exact Or.inl rfl
    · exact Or.inl rfl

/-- A click takes a detection off its track. Or else it puts the nearest one on the track, and
leads to the next frame with one that is on none, or ends the track if there is none. -/
theorem click_cases (e : TrackEngine) (frame : Nat) (p : Point α) :
    (∃ index, e.click frame p = (.unlabeled index, e.setTrack frame index none)) ∨
    (∃ next, (e.assignNearest frame p).2.unlabeledFrameFrom? (wrapUInt64 (frame + 1)) = some next ∧
      e.click frame p =
        (.assigned (e.assignNearest frame p).1 next false, (e.assignNearest frame p).2)) ∨
    ((e.assignNearest frame p).2.unlabeledFrameFrom? (wrapUInt64 (frame + 1)) = none ∧
      e.click frame p =
        (.assigned (e.assignNearest frame p).1
          ((e.assignNearest frame p).2.endTrack.1.getD frame) true,
          (e.assignNearest frame p).2.endTrack.2)) := by
  unfold click
  rcases e.unlabelAt_cases frame p with h | ⟨index, h⟩ <;> rw [h]
  · cases hn : (e.assignNearest frame p).2.unlabeledFrameFrom? (wrapUInt64 (frame + 1)) with
    | none => exact Or.inr (Or.inr ⟨rfl, by simp only [hn]⟩)
    | some next => exact Or.inr (Or.inl ⟨next, rfl, by simp only [hn]⟩)
  · exact Or.inl ⟨index, rfl⟩

theorem labeled?_click_unlabeled {e' : TrackEngine} {frame index : Nat} {p : Point α}
    (h : e.click frame p = (.unlabeled index, e')) : e.labeled? (.click frame p) = none := by
  simp only [labeled?, h]

theorem labeled?_click_assigned {e' : TrackEngine} {frame next : Nat} {p : Point α}
    {detection : Option Nat} {ended : Bool}
    (h : e.click frame p = (.assigned detection next ended, e')) :
    e.labeled? (.click frame p) = detection.map fun index => (frame, index) := by
  simp only [labeled?, h]
  cases detection <;> rfl

/-! ## Tracks in use -/

theorem mem_tracks {frames : List (List Detection)} {t : Int} :
    t ∈ tracks frames ↔ ∃ ds ∈ frames, ∃ d ∈ ds, d.track = some t := by
  unfold tracks
  rw [List.mem_filterMap]
  constructor
  · rintro ⟨d, hd, ht⟩
    obtain ⟨ds, hds, hd⟩ := List.mem_flatten.1 hd
    exact ⟨ds, hds, d, hd, ht⟩
  · rintro ⟨ds, hds, d, hd, ht⟩
    exact ⟨d, List.mem_flatten.2 ⟨ds, hds, hd⟩, ht⟩

/-- A track is in use after a detection was put on a track, or off its track, only if it was
before, or is the one on which the detection was put. -/
theorem mem_tracks_setTrack {frame index : Nat} {track : Option Int} {t : Int}
    (h : t ∈ tracks (e.setTrack frame index track).frames) :
    t ∈ tracks e.frames ∨ track = some t := by
  obtain ⟨ds, hds, d, hd, ht⟩ := mem_tracks.1 h
  rcases mem_modify hds with hds | ⟨ds', hds', rfl⟩
  · exact Or.inl (mem_tracks.2 ⟨ds, hds, d, hd, ht⟩)
  · rcases mem_modify hd with hd | ⟨d', -, rfl⟩
    · exact Or.inl (mem_tracks.2 ⟨ds', List.mem_of_getElem? hds', d, hd, ht⟩)
    · exact Or.inr ht

/-- The first number after some is 1, or one further than the greatest of them. -/
theorem nextAfter_cases {ts : List Int} (h : ∀ t ∈ ts, isInt64 t = true ∧ t < 9223372036854775807) :
    ts = [] ∧ nextAfter ts = 1 ∨
      ∃ last ∈ ts, (∀ t ∈ ts, t ≤ last) ∧ nextAfter ts = max (last + 1) 1 := by
  unfold nextAfter
  cases hmax : ts.max? with
  | none => exact Or.inl ⟨List.max?_eq_none_iff.1 hmax, rfl⟩
  | some last =>
    obtain ⟨hlast, hgreatest⟩ := List.max?_eq_some_iff.1 hmax
    obtain ⟨hfits, hlt⟩ := h last hlast
    rw [isInt64_iff] at hfits
    have hnext : following last = last + 1 :=
      wrapInt64_of_isInt64 (isInt64_iff.2 (by omega))
    exact Or.inr ⟨last, hlast, hgreatest, congrArg (max · 1) hnext⟩

/-- The first number after some is above each of them, and positive. -/
theorem lt_nextAfter {ts : List Int} (h : ∀ t ∈ ts, isInt64 t = true ∧ t < 9223372036854775807) :
    (∀ t ∈ ts, t < nextAfter ts) ∧ 1 ≤ nextAfter ts := by
  rcases nextAfter_cases h with ⟨rfl, hn⟩ | ⟨last, -, hgreatest, hn⟩ <;> rw [hn]
  · exact ⟨fun _ ht => absurd ht List.not_mem_nil, Int.le_refl 1⟩
  · refine ⟨fun t ht => ?_, by omega⟩
    have hle := hgreatest t ht
    omega

/-- After the greatest number of all they begin anew, with tracks that may be in use. -/
example : nextAfter [9223372036854775807, 1] = 1 := by decide

theorem nextAfter_le {ts : List Int} {bound : Int} (hb : 1 ≤ bound)
    (hmax : bound ≤ 9223372036854775807) (h : ∀ t ∈ ts, isInt64 t = true ∧ t < bound) :
    nextAfter ts ≤ bound := by
  have hbelow : ∀ t ∈ ts, isInt64 t = true ∧ t < 9223372036854775807 :=
    fun t ht => ⟨(h t ht).1, Int.lt_of_lt_of_le (h t ht).2 hmax⟩
  rcases nextAfter_cases hbelow with ⟨-, hn⟩ | ⟨last, hlast, -, hn⟩ <;> rw [hn]
  · exact hb
  · have hlt := (h last hlast).2
    omega

/-! ## Numbers -/

/-- No number in use is above the number of the track that is being labeled. -/
structure Numbered (e : TrackEngine) : Prop where
  used : ∀ t ∈ tracks e.frames, t ≤ e.next
  positive : 1 ≤ e.next

theorem numbered_reset (frameCount : Nat) : (reset frameCount).Numbered where
  used t ht := by
    obtain ⟨ds, hds, d, hd, -⟩ := mem_tracks.1 ht
    rw [List.eq_of_mem_replicate hds] at hd
    cases hd
  positive := Int.le_refl 1

theorem next_applyFresh (e : TrackEngine) (frames : List (List Detection)) :
    (e.applyFresh frames).2.next = e.next := by
  unfold applyFresh
  split <;> rfl

theorem assignNearest_next (e : TrackEngine) (frame : Nat) (p : Point α) :
    (e.assignNearest frame p).2.next = e.next := by
  rcases e.assignNearest_cases frame p with h | ⟨index, h⟩
  · rw [h]
  · rw [h]
    rfl

/-- Without a load the number is followed by the next one when the track is ended, and else
stays. -/
theorem next_perform {op : TrackOp α} (hl : ¬ op.Loads) :
    ¬ e.Ends op ∧ (e.perform op).next = e.next ∨
      e.Ends op ∧ (e.perform op).next = following e.next := by
  cases op with
  | applyFresh frames => exact Or.inl ⟨id, e.next_applyFresh frames⟩
  | applyFreshMetadata metadata =>
    refine Or.inl ⟨id, ?_⟩
    show (e.applyFreshMetadata metadata).2.next = e.next
    unfold applyFreshMetadata
    split <;> rfl
  | applyStored frames metadata =>
    obtain rfl : frames = [] := Classical.not_not.1 hl
    exact Or.inl ⟨id, rfl⟩
  | assignNearest frame p => exact Or.inl ⟨id, e.assignNearest_next frame p⟩
  | unlabelAt frame p =>
    refine Or.inl ⟨id, ?_⟩
    show (e.unlabelAt frame p).2.next = e.next
    rcases e.unlabelAt_cases frame p with h | ⟨index, h⟩
    · rw [h]
    · rw [h]
      rfl
  | endTrack => exact Or.inr ⟨trivial, rfl⟩
  | click frame p =>
    show (¬ ∃ detection next, (e.click frame p).1 = .assigned detection next true) ∧
        (e.click frame p).2.next = e.next ∨
      (∃ detection next, (e.click frame p).1 = .assigned detection next true) ∧
        (e.click frame p).2.next = following e.next
    have hnext := e.assignNearest_next frame p
    rcases e.click_cases frame p with ⟨index, h⟩ | ⟨next, -, h⟩ | ⟨-, h⟩ <;> rw [h]
    · refine Or.inl ⟨?_, rfl⟩
      rintro ⟨detection, next, he⟩
      cases he
    · refine Or.inl ⟨?_, hnext⟩
      rintro ⟨detection, next, he⟩
      cases he
    · exact Or.inr ⟨⟨_, _, rfl⟩, congrArg following hnext⟩

/-- The number that follows some times is that many further, wrapped around. -/
theorem following_iterate {number : Int} (h : isInt64 number = true) (n : Nat) :
    following^[n] number = wrapInt64 (number + n) := by
  induction n with
  | zero =>
    rw [Int.natCast_zero, Int.add_zero]
    exact (wrapInt64_of_isInt64 h).symm
  | succ n ih =>
    rw [Function.iterate_succ_apply', ih, Int.natCast_succ, ← Int.add_assoc]
    exact Int.bmod_add_bmod

theorem following_eq (h : e.numberFits = true) : following e.next = e.next + 1 :=
  wrapInt64_of_isInt64 h

theorem next_perform_of_room {op : TrackOp α} (hl : ¬ op.Loads) (hr : e.HasRoom op) :
    ¬ e.Ends op ∧ (e.perform op).next = e.next ∨
      e.Ends op ∧ (e.perform op).next = e.next + 1 := by
  rcases next_perform (e := e) hl with ⟨hno, hn⟩ | ⟨he, hn⟩
  · exact Or.inl ⟨hno, hn⟩
  · exact Or.inr ⟨he, hn.trans (following_eq (hr he))⟩

/-- Without a load a track comes into use only by its number being that of the track that is
labeled. -/
theorem mem_tracks_perform {op : TrackOp α} (hl : ¬ op.Loads) (hp : op.Plain) {t : Int}
    (h : t ∈ tracks (e.perform op).frames) : t ∈ tracks e.frames ∨ t = e.next := by
  have hassign : ∀ (frame : Nat) (p : Point α),
      t ∈ tracks (e.assignNearest frame p).2.frames → t ∈ tracks e.frames ∨ t = e.next := by
    intro frame p ht
    rcases e.assignNearest_cases frame p with hcase | ⟨index, hcase⟩ <;> rw [hcase] at ht
    · exact Or.inl ht
    · exact (mem_tracks_setTrack ht).imp_right fun he => (Option.some.inj he).symm
  have hremove : ∀ frame index : Nat,
      t ∈ tracks (e.setTrack frame index none).frames → t ∈ tracks e.frames :=
    fun frame index ht => (mem_tracks_setTrack ht).resolve_right fun he => by cases he
  cases op with
  | applyFresh frames =>
    change t ∈ tracks (e.applyFresh frames).2.frames at h
    unfold applyFresh at h
    split at h
    · exact Or.inl h
    · obtain ⟨ds, hds, d, hd, ht⟩ := mem_tracks.1 h
      rcases mem_resized hds with hds | rfl
      · rw [hp ds hds d hd] at ht
        cases ht
      · cases hd
  | applyFreshMetadata metadata =>
    change t ∈ tracks (e.applyFreshMetadata metadata).2.frames at h
    unfold applyFreshMetadata at h
    split at h <;> exact Or.inl h
  | applyStored frames metadata =>
    obtain rfl : frames = [] := Classical.not_not.1 hl
    exact Or.inl h
  | assignNearest frame p => exact hassign frame p h
  | unlabelAt frame p =>
    change t ∈ tracks (e.unlabelAt frame p).2.frames at h
    rcases e.unlabelAt_cases frame p with hcase | ⟨index, hcase⟩ <;> rw [hcase] at h
    · exact Or.inl h
    · exact Or.inl (hremove frame index h)
  | endTrack => exact Or.inl h
  | click frame p =>
    change t ∈ tracks (e.click frame p).2.frames at h
    rcases e.click_cases frame p with ⟨index, hcase⟩ | ⟨next, -, hcase⟩ | ⟨-, hcase⟩ <;>
      rw [hcase] at h
    · exact Or.inl (hremove frame index h)
    · exact hassign frame p h
    · exact hassign frame p h

theorem perform_stored {frames : List (List Detection)} (h : frames ≠ []) (metadata : Option Json) :
    e.perform (.applyStored frames metadata : TrackOp α) =
      ⟨frames, metadata, nextAfter (tracks frames), true⟩ := by
  have hne : frames.isEmpty = false := by
    rw [← Bool.not_eq_true, List.isEmpty_iff]
    exact h
  show (e.applyStored frames metadata).2 = _
  unfold applyStored
  rw [hne]
  rfl

/-- After a load the number is above those of all stored tracks. -/
theorem lt_next_of_loads {op : TrackOp α} (hl : op.Loads)
    (hs : op.StoresBelow 9223372036854775807) :
    (∀ t ∈ tracks (e.perform op).frames, t < (e.perform op).next) ∧ 1 ≤ (e.perform op).next := by
  cases op with
  | applyStored frames metadata =>
    rw [perform_stored hl]
    exact lt_nextAfter hs
  | _ => exact hl.elim

/-- With the numbers of stored tracks below a bound, an operation that passes the bound raises the
number by one at most. -/
theorem next_perform_le {op : TrackOp α} {bound : Int} (hb : 1 ≤ bound)
    (hmax : bound ≤ 9223372036854775807) (hs : op.StoresBelow bound) (hpos : 1 ≤ e.next)
    (hr : e.HasRoom op) :
    1 ≤ (e.perform op).next ∧ ((e.perform op).next ≤ bound ∨ (e.perform op).next ≤ e.next + 1) := by
  by_cases hl : op.Loads
  · cases op with
    | applyStored frames metadata =>
      have hbelow : ∀ t ∈ tracks frames, isInt64 t = true ∧ t < 9223372036854775807 :=
        fun t ht => ⟨(hs t ht).1, Int.lt_of_lt_of_le (hs t ht).2 hmax⟩
      rw [perform_stored hl]
      exact ⟨(lt_nextAfter hbelow).2, Or.inl (nextAfter_le hb hmax hs)⟩
    | _ => exact hl.elim
  · rcases next_perform_of_room hl hr with ⟨-, hn⟩ | ⟨-, hn⟩ <;> rw [hn] <;> omega

/-- With the numbers of stored tracks below a bound, there is one for each track of a run that has
no more operations than there are numbers from the bound on. -/
theorem hasRoomFor_of_length (frameCount : Nat) {ops : List (TrackOp α)} {bound : Int}
    (hb : 1 ≤ bound) (hs : ∀ op ∈ ops, op.StoresBelow bound)
    (hlen : bound + ops.length ≤ 9223372036854775807) : (reset frameCount).HasRoomFor ops := by
  have hrun : ∀ (ops : List (TrackOp α)) (e : TrackEngine) (k : Nat),
      (∀ op ∈ ops, op.StoresBelow bound) → 1 ≤ e.next → e.next ≤ bound + k →
        bound + (k + ops.length : Nat) ≤ 9223372036854775807 → e.HasRoomFor ops := by
    intro ops
    induction ops with
    | nil => exact fun e k _ _ _ _ => trivial
    | cons op rest ih =>
      intro e k hs hpos hk hlen
      rw [List.length_cons] at hlen
      have hroom : e.HasRoom op := fun _ => isInt64_iff.2 (by omega)
      obtain ⟨hpos', hle⟩ :=
        next_perform_le hb (by omega) (hs op (List.mem_cons_self ..)) hpos hroom
      exact ⟨hroom, ih (e.perform op) (k + 1) (fun o ho => hs o (List.mem_cons_of_mem _ ho)) hpos'
        (by omega) (by omega)⟩
  exact hrun ops (reset frameCount) 0 hs (Int.le_refl 1) (by show (1 : Int) ≤ _; omega)
    (by omega)

theorem Numbered.perform (h : e.Numbered) {op : TrackOp α} (hp : op.Plain)
    (hs : op.StoresBelow 9223372036854775807) (hr : e.HasRoom op) : (e.perform op).Numbered := by
  by_cases hl : op.Loads
  · obtain ⟨hlt, hpos⟩ := lt_next_of_loads (e := e) hl hs
    exact ⟨fun t ht => Int.le_of_lt (hlt t ht), hpos⟩
  · have hpos := h.positive
    have hnext : e.next ≤ (e.perform op).next := by
      rcases next_perform_of_room hl hr with ⟨-, hn⟩ | ⟨-, hn⟩ <;> omega
    refine ⟨fun t ht => ?_, by omega⟩
    rcases mem_tracks_perform hl hp ht with ht | rfl
    · have hle := h.used t ht
      omega
    · exact hnext

theorem Numbered.performAll {ops : List (TrackOp α)} (hops : ∀ op ∈ ops, op.Plain)
    (hs : ∀ op ∈ ops, op.StoresBelow 9223372036854775807) :
    ∀ {e : TrackEngine}, e.Numbered → e.HasRoomFor ops → (e.performAll ops).Numbered := by
  induction ops with
  | nil => exact fun h _ => h
  | cons op rest ih =>
    exact fun h hr => ih (fun o ho => hops o (List.mem_cons_of_mem _ ho))
      (fun o ho => hs o (List.mem_cons_of_mem _ ho))
      (h.perform (hops op (List.mem_cons_self ..)) (hs op (List.mem_cons_self ..)) hr.1) hr.2

/-- After the track was ended the number is above those of all tracks in use. -/
theorem Numbered.lt_next_of_ends (h : e.Numbered) {op : TrackOp α} (hr : e.HasRoom op)
    (he : e.Ends op) :
    ∀ t ∈ tracks (e.perform op).frames, t < (e.perform op).next := by
  have hl : ¬ op.Loads := by
    cases op <;> first | exact he.elim | exact id
  have hp : op.Plain := by
    cases op <;> first | exact he.elim | trivial
  intro t ht
  obtain ⟨-, hn⟩ := (next_perform_of_room hl hr).resolve_left fun hno => hno.1 he
  rw [hn]
  rcases mem_tracks_perform hl hp ht with ht | rfl
  · have hle := h.used t ht
    omega
  · omega

/-- Between two loads the number never goes down, and goes up when the track is ended. -/
theorem next_performAll {ops : List (TrackOp α)} (hops : ∀ op ∈ ops, ¬ op.Loads) :
    ∀ e : TrackEngine, e.HasRoomFor ops → e.next ≤ (e.performAll ops).next ∧
      (e.EndsIn ops → e.next < (e.performAll ops).next) := by
  induction ops with
  | nil => exact fun e _ => ⟨Int.le_refl _, fun h => h.elim⟩
  | cons op rest ih =>
    intro e hr
    obtain ⟨hle, hlt⟩ := ih (fun o ho => hops o (List.mem_cons_of_mem _ ho)) (e.perform op) hr.2
    rw [performAll, List.foldl_cons]
    change (e.perform op).next ≤ (rest.foldl perform (e.perform op)).next at hle
    rcases next_perform_of_room (hops op (List.mem_cons_self ..)) hr.1 with ⟨hno, hn⟩ | ⟨-, hn⟩
    · refine ⟨by omega, fun h => ?_⟩
      have hrest := hlt (h.resolve_left hno)
      change (e.perform op).next < (rest.foldl perform (e.perform op)).next at hrest
      omega
    · exact ⟨by omega, fun _ => by omega⟩

/-- What an operation puts on a track, it puts on the one that is being labeled. -/
theorem Labels.eq_next {op : TrackOp α} {number : Int} (h : e.Labels op number) :
    number = e.next := by
  obtain ⟨frame, index, hplace, htrack⟩ := h
  have hset : ((e.setTrack frame index (some e.next)).frame frame)[index]?.bind Detection.track =
      some number → number = e.next := by
    intro hs
    rw [frame_setTrack, if_pos rfl, List.getElem?_modify_eq] at hs
    cases hd : (e.frame frame)[index]? with
    | none =>
      rw [hd] at hs
      cases hs
    | some d =>
      rw [hd] at hs
      exact (Option.some.inj hs).symm
  have hassign : ∀ p : Point α, (e.assignNearest frame p).1 = some index →
      ((e.assignNearest frame p).2.frame frame)[index]?.bind Detection.track = some number →
      number = e.next := by
    intro p hfound hs
    rcases e.assignNearest_cases frame p with hcase | ⟨i, hcase⟩ <;> rw [hcase] at hfound hs
    · cases hfound
    · cases hfound
      exact hset hs
  cases op with
  | assignNearest k p =>
    obtain ⟨i, hi, heq⟩ := Option.map_eq_some_iff.1 hplace
    cases heq
    exact hassign p hi htrack
  | click k p =>
    change ((e.click k p).2.frame frame)[index]?.bind Detection.track = some number at htrack
    rcases e.click_cases k p with ⟨i, hcase⟩ | ⟨next, -, hcase⟩ | ⟨-, hcase⟩
    · rw [labeled?_click_unlabeled hcase] at hplace
      cases hplace
    all_goals
      rw [labeled?_click_assigned hcase] at hplace
      rw [hcase] at htrack
      obtain ⟨i, hi, heq⟩ := Option.map_eq_some_iff.1 hplace
      cases heq
      exact hassign p hi htrack
  | _ => cases hplace

/-- In every run over the frames of an item, in which computed detections are on no track, stored
ones on tracks below the greatest number, and no track is ended on the greatest number: the
number of the track that is being labeled is positive and not below any number in use, and above
all of them once the track was ended or stored detections were loaded. Without a load it never
goes down. So of two detections that are labeled before the next load, one before and one after
the end of a track, the later one gets the greater number, and none that is labeled after a load
is put on a track that was stored. -/
theorem number_unused (frameCount : Nat) {ops : List (TrackOp α)} (hops : ∀ op ∈ ops, op.Plain)
    (hstored : ∀ op ∈ ops, op.StoresBelow 9223372036854775807)
    (hroom : (reset frameCount).HasRoomFor ops) :
    let e := (reset frameCount).performAll ops
    (∀ t ∈ tracks e.frames, t ≤ e.next) ∧ 1 ≤ e.next ∧
    ∀ op : TrackOp α, op.StoresBelow 9223372036854775807 → e.HasRoom op →
      (op.Loads ∨ e.Ends op → ∀ t ∈ tracks (e.perform op).frames, t < (e.perform op).next) ∧
      (¬ op.Loads → e.next ≤ (e.perform op).next) ∧
      ∀ rest : List (TrackOp α), (∀ o ∈ rest, ¬ o.Loads) → (e.perform op).HasRoomFor rest →
        ∀ (later : TrackOp α) (number : Int),
        ((e.perform op).performAll rest).Labels later number →
        (∀ earlier, ¬ op.Loads → e.Labels op earlier →
          e.Ends op ∨ (e.perform op).EndsIn rest → earlier < number) ∧
        (op.Loads → number ∉ tracks (e.perform op).frames) := by
  intro e
  have he : e.Numbered := (numbered_reset frameCount).performAll hops hstored hroom
  refine ⟨he.used, he.positive, fun op hs hr => ⟨fun h => ?_, fun hl => ?_, ?_⟩⟩
  · exact h.elim (fun hl => (lt_next_of_loads hl hs).1) (he.lt_next_of_ends hr)
  · rcases next_perform_of_room hl hr with ⟨-, hn⟩ | ⟨-, hn⟩ <;> omega
  · intro rest hrest hroom' later number hlater
    obtain rfl := hlater.eq_next
    obtain ⟨hle, hlt⟩ := next_performAll hrest (e.perform op) hroom'
    refine ⟨fun earlier hl hearlier hends => ?_, fun hl hin => ?_⟩
    · obtain rfl := hearlier.eq_next
      rcases next_perform_of_room hl hr with ⟨hno, hn⟩ | ⟨-, hn⟩
      · have hup := hlt (hends.resolve_left hno)
        omega
      · omega
    · have hup := (lt_next_of_loads hl hs).1 _ hin
      omega

/-- Two detections are computed for the one frame of an item. The click on the first ends its
track, and the second gets the next number. -/
theorem number_unused_clicks :
    let ops : List (TrackOp Float) := [.applyFresh [[.plain 0 0 9 9, .plain 100 100 109 109]]]
    let e := (reset 1).performAll ops
    let first : TrackOp Float := .click 0 ⟨5, 5⟩
    let second : TrackOp Float := .click 0 ⟨105, 105⟩
    (∀ op ∈ ops, op.Plain) ∧ (∀ op ∈ ops, op.StoresBelow 9223372036854775807) ∧
      (reset 1).HasRoomFor ops ∧ e.Labels first 1 ∧ (e.perform first).Labels second 2 ∧
      ∀ number, (e.perform first).Labels second number → 1 < number := by
  intro ops e first second
  have hops : ∀ op ∈ ops, op.Plain := by
    intro op hop
    rw [List.mem_singleton.1 hop]
    intro ds hds d hd
    rw [List.mem_singleton.1 hds] at hd
    simp only [List.mem_cons, List.not_mem_nil, or_false] at hd
    rcases hd with rfl | rfl <;> rfl
  have hstored : ∀ bound, ∀ op ∈ ops, op.StoresBelow bound := by
    intro bound op hop
    rw [List.mem_singleton.1 hop]
    trivial
  have hroom : (reset 1).HasRoomFor ops :=
    hasRoomFor_of_length 1 (Int.le_refl 1) (hstored 1) (by decide)
  have hfirst : e.Labels first 1 := ⟨0, 0, by decide +kernel, by decide +kernel⟩
  have hends : e.Ends first := ⟨some 0, 0, by decide +kernel⟩
  have hfits : e.HasRoom first := fun _ => by decide +kernel
  refine ⟨hops, hstored _, hroom, hfirst, ⟨0, 1, by decide +kernel, by decide +kernel⟩,
    fun number h => ?_⟩
  have hunused := (number_unused 1 hops (hstored _) hroom).2.2 first trivial hfits
  exact (hunused.2.2 [] (fun o ho => by cases ho) trivial second number h).1 1 id hfirst
    (Or.inl hends)

/-- Stored detections for no frames arrive while the number of the track is in use, and it still
is afterwards. Stored detections on no track begin the numbers anew, so the same number is given
again, though the track was ended in between. -/
theorem number_reused :
    let label : TrackOp Float := .assignNearest 0 ⟨0, 0⟩
    let plain : List (List Detection) := [[.plain 0 0 9 9]]
    let computed := (reset 1).perform (.applyFresh plain : TrackOp Float)
    let ignored := (computed.perform label).perform (.applyStored [] none : TrackOp Float)
    let loaded := ((computed.perform label).perform (.endTrack : TrackOp Float)).perform
      (.applyStored plain none : TrackOp Float)
    ¬ (∀ t ∈ tracks ignored.frames, t < ignored.next) ∧
      computed.Labels label 1 ∧ loaded.Labels label 1 := by
  intro label plain computed ignored loaded
  exact ⟨by decide +kernel, ⟨0, 0, by decide +kernel, by decide +kernel⟩,
    ⟨0, 0, by decide +kernel, by decide +kernel⟩⟩

end TrackEngine

end Labeling
