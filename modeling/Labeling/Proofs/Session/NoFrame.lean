import Labeling.Proofs.Session.History
import Labeling.Proofs.Tool.NoFrame
import Labeling.Proofs.Tracking.Numbers

/-!
# The user while no frame is shown

Between leaving a frame and showing the next one, and while there is no item, a session shows no
frame. What the user does then is ignored: the annotations stay as they are, nothing is asked of
the backend and no work is put off. The only exception is the key that ends a track, for which the
track tool does not look at the frame.

`Session.OnlyEnds` says that nothing happened but the end of some tracks. Each of them makes the
number of the next track the following one and puts off at most one piece of work, which is to show
a frame. Following numbers are one further each, unless the greatest one is among them
(`Session.OnlyEnds.nextTrack?_eq`).

* `Session.notify_ignored`, `Session.notify_endKey`: so it is for each event, with no track or
  with one;
* `Desk.input_without_frame`: so it is for each input, where the number of tracks is that of the
  keys that end one;
* `History.keys_end_track`: a run in which the key ends a track that nothing was put on.
-/

namespace Labeling

namespace Session

variable {s s' s'' : Session} {m n : Nat}

/-! ## Ends of tracks -/

/-- A key event ends a track. -/
def endsTrack (s : Session) (e : KeyEvent) : Bool :=
  s.annotationSet.isSome && s.tool.any fun t => t.endsTrack e

/-- While no frame is shown a number of tracks was ended, and nothing else happened. -/
structure OnlyEnds (n : Nat) (s s' : Session) : Prop where
  frame : s'.frame = none
  annotationSet : s'.annotationSet = s.annotationSet
  endKey? : s'.tool.bind Tool.endKey? = s.tool.bind Tool.endKey?
  marks : s'.tool.map Tool.marks = s.tool.map Tool.marks
  nextTrack? : s'.tool.bind Tool.nextTrack? =
    (s.tool.bind Tool.nextTrack?).map TrackEngine.following^[n]
  outbox : s'.outbox = s.outbox
  /-- What was put off is to show frames, one for a track at most. -/
  deferred : ∃ shown, s'.deferred = s.deferred ++ shown ∧ shown.length ≤ n ∧
    ∀ task ∈ shown, ∃ index seq, task = .showFrame index seq

theorem OnlyEnds.refl (hf : s.frame = none) : OnlyEnds 0 s s where
  frame := hf
  annotationSet := rfl
  endKey? := rfl
  marks := rfl
  nextTrack? := by simp
  outbox := rfl
  deferred := ⟨[], by simp⟩

theorem OnlyEnds.trans (h : OnlyEnds m s s') (h' : OnlyEnds n s' s'') :
    OnlyEnds (m + n) s s'' where
  frame := h'.frame
  annotationSet := h'.annotationSet.trans h.annotationSet
  endKey? := h'.endKey?.trans h.endKey?
  marks := h'.marks.trans h.marks
  nextTrack? := by
    rw [h'.nextTrack?, h.nextTrack?, Option.map_map, ← Function.iterate_add, Nat.add_comm]
  outbox := h'.outbox.trans h.outbox
  deferred := by
    obtain ⟨shown, hd, hlen, hall⟩ := h.deferred
    obtain ⟨shown', hd', hlen', hall'⟩ := h'.deferred
    refine ⟨shown ++ shown', by rw [hd', hd, List.append_assoc], ?_, fun task hm => ?_⟩
    · rw [List.length_append]
      omega
    · rcases List.mem_append.1 hm with hm | hm
      · exact hall task hm
      · exact hall' task hm

/-- The ends of tracks do not change which keys end one. -/
theorem OnlyEnds.endsTrack_eq (h : OnlyEnds n s s') (e : KeyEvent) :
    s'.endsTrack e = s.endsTrack e := by
  have hkey : ∀ x : Session, (x.tool.any fun t => t.endsTrack e) =
      (!e.isPress && !e.inField && x.tool.bind Tool.endKey? == some e.key) := by
    intro x
    cases x.tool with
    | none => simp
    | some t => rfl
  unfold endsTrack
  rw [hkey s', hkey s, h.annotationSet, h.endKey?]

/-! ## Single events -/

/-- To ask for a frame while none is shown is to put off one piece of work at most. -/
theorem getFrame_of_no_frame (hf : s.frame = none) (index : Int) :
    (s.getFrame index).frame = none ∧ (s.getFrame index).annotationSet = s.annotationSet ∧
      ((s.getFrame index).tool = s.tool ∨
        (s.getFrame index).tool = s.tool.map Tool.resetFrame) ∧
      (s.getFrame index).outbox = s.outbox ∧
      ∃ shown, (s.getFrame index).deferred = s.deferred ++ shown ∧ shown.length ≤ 1 ∧
        ∀ task ∈ shown, ∃ index seq, task = .showFrame index seq := by
  unfold getFrame
  split
  · exact ⟨hf, rfl, .inl rfl, rfl, [], by simp⟩
  · refine ⟨rfl, rfl, .inr rfl, rfl, [.showFrame index (s.frameSeq + 1)], rfl, Nat.le_refl 1, ?_⟩
    intro task hm
    exact ⟨index, s.frameSeq + 1, List.mem_singleton.1 hm⟩

/-- An event that does not end a track is ignored. -/
theorem notify_ignored (hf : s.frame = none) {e : ToolEvent} (he : e.IsInput)
    (hk : ∀ k, e = .key k → s.endsTrack k = false) : OnlyEnds 0 s (s.notify e) := by
  unfold notify withTool
  split
  · rename_i set t hset ht
    have hother : ∀ k, e = .key k → t.endsTrack k = false := by
      intro k hek
      have hends := hk k hek
      unfold endsTrack at hends
      rwa [hset, ht] at hends
    have hignores := t.handle_ignores (v := s.view set) hf he hother
    dsimp only
    rw [hignores.commands]
    exact {
      frame := hf
      annotationSet := rfl
      endKey? := by rw [ht]; exact hignores.endKey?
      marks := by rw [ht]; exact congrArg some hignores.marks
      nextTrack? := by rw [ht]; simpa using hignores.nextTrack?
      outbox := rfl
      deferred := ⟨[], by simp⟩ }
  · exact .refl hf

/-- While the numbers last, each track that was ended makes the number of the next one go up by
one. -/
theorem OnlyEnds.nextTrack?_eq (h : OnlyEnds n s s') {next : Int}
    (hnext : s.tool.bind Tool.nextTrack? = some next) (hfits : isInt64 next = true)
    (hlast : isInt64 (next + n) = true) : s'.tool.bind Tool.nextTrack? = some (next + n) := by
  rw [h.nextTrack?, hnext, Option.map_some, TrackEngine.following_iterate hfits,
    wrapInt64_of_isInt64 hlast]

/-- The end key ends one track. -/
theorem notify_endKey (hf : s.frame = none) {e : KeyEvent} (he : s.endsTrack e = true) :
    OnlyEnds 1 s (s.notify (.key e)) := by
  unfold endsTrack at he
  obtain ⟨hset, htool⟩ := Bool.and_eq_true_iff.1 he
  obtain ⟨set, hset⟩ := Option.isSome_iff_exists.1 hset
  obtain ⟨tool, ht, hends⟩ := (Option.any_eq_true _ _).1 htool
  obtain ⟨t, rfl, hhandle⟩ := Tool.handle_endKey (v := s.view set) hf hends
  -- the session right after the call, before it carries out what the tool asks for
  have hcall : OnlyEnds 1 s
      { s with tool := some (.track { t with engine := t.engine.endTrack.2 }) } :=
    { frame := hf
      annotationSet := rfl
      endKey? := by rw [ht]; rfl
      marks := by rw [ht]; rfl
      nextTrack? := by rw [ht]; rfl
      outbox := rfl
      deferred := ⟨[], by simp⟩ }
  rw [notify_eq hset ht, hhandle]
  cases t.engine.endTrack.1 with
  | none => exact hcall
  | some frame =>
    show OnlyEnds 1 s (getFrame _ (signed frame))
    obtain ⟨hframe, hset', htool', houtbox, hdeferred⟩ :=
      getFrame_of_no_frame hcall.frame (signed frame)
    refine ⟨hframe, hset', ?_, ?_, ?_, houtbox, hdeferred⟩
    all_goals rcases htool' with htool' | htool' <;> rw [htool', ht] <;> rfl

/-- The number of tracks that are ended by some key events. -/
def endings (s : Session) (events : List KeyEvent) : Nat := events.countP s.endsTrack

theorem handleKeys_onlyEnds (hf : s.frame = none) (events : List KeyEvent) :
    OnlyEnds (s.endings events) s (s.handleKeys events) := by
  unfold handleKeys
  induction events generalizing s with
  | nil => exact .refl hf
  | cons e rest ih =>
    rw [List.foldl_cons]
    have hstep : OnlyEnds (if s.endsTrack e then 1 else 0) s (s.notify (.key e)) := by
      by_cases he : s.endsTrack e = true
      · rw [if_pos he]
        exact notify_endKey hf he
      · rw [if_neg he]
        refine notify_ignored hf trivial fun k hk => ?_
        cases hk
        exact Bool.eq_false_iff.2 he
    have hsame : (s.notify (.key e)).endings rest = s.endings rest :=
      congrArg (fun p => List.countP p rest) (funext hstep.endsTrack_eq)
    have hcount : s.endings (e :: rest) = (if s.endsTrack e then 1 else 0) + s.endings rest := by
      unfold endings
      rw [List.countP_cons]
      omega
    have hrest := ih hstep.frame
    rw [hsame] at hrest
    rw [hcount]
    exact hstep.trans hrest

end Session

/-! ## Inputs -/

/-- What the user does with the frame that is shown. -/
def SessionOp.IsInput : SessionOp → Prop
  | .click _ => True
  | .pointerMove _ => True
  | .dragStart _ => True
  | .dragMove _ => True
  | .dragEnd => True
  | .pumpKeys => True
  | .finishFrame => True
  | _ => False

namespace Desk

/-- The number of tracks that an operation ends by the key events that reached the session. -/
def endings (d : Desk) : SessionOp → Nat
  | .pumpKeys => d.session.endings (d.hub.queued d.session.keys)
  | _ => 0

/-- While no frame is shown, whatever the user does, annotations and outbox stay as they are. The
number of the next track and the work that was put off stay too, unless keys end tracks. -/
theorem input_without_frame {d : Desk} {op : SessionOp} (hop : op.IsInput)
    (hf : d.session.frame = none) :
    Session.OnlyEnds (d.endings op) d.session (d.perform op).session := by
  have hpointer : ∀ e : ToolEvent, e.IsInput → (∀ k, e ≠ .key k) →
      Session.OnlyEnds 0 d.session (d.session.notify e) :=
    fun e he hk => Session.notify_ignored hf he fun k hek => absurd hek (hk k)
  cases op with
  | click p => exact hpointer (.click p) trivial fun k h => by cases h
  | pointerMove p => exact hpointer (.pointerMove p) trivial fun k h => by cases h
  | dragMove p => exact hpointer (.dragMove p) trivial fun k h => by cases h
  | dragEnd => exact hpointer .dragEnd trivial fun k h => by cases h
  | dragStart p =>
    show Session.OnlyEnds 0 d.session (d.session.ask (.dragStart p)).2
    rw [Session.ask_eq]
    exact hpointer (.dragStart p) trivial fun k h => by cases h
  | pumpKeys => exact Session.handleKeys_onlyEnds hf _
  | finishFrame =>
    show Session.OnlyEnds 0 d.session d.session.finishFrame
    unfold Session.finishFrame
    rw [hf]
    exact .refl hf
  | _ => exact hop.elim

end Desk

namespace History

/-- An item with one detection is shown. Its frame was left, and before the next round some key
events reached the keyboard. -/
def exampleLeft (events : List KeyEvent) : History :=
  (History.mk (.open fun keys =>
      (Session.ofSet (exampleSet .detectionToTrack .detection) .default keys).start) [] []).performAll
    ([.complete ⟨0, .assignment, 1⟩ (.ok (.json (.arr [.str "a"]))),
      .complete ⟨1, .itemMeta ⟨"a", false, none⟩, 1⟩ (.ok (.json .null)), .tick,
      .complete ⟨2, .tool .freshDetections, 1⟩
        (.ok (.json (detectionFramesToJson [[.plain 0 0 9 9]]))),
      .getFrame 0] ++ events.map .dispatch)

/-- Of four key events two end a track. The others are another key and one that was typed into a
text field. -/
theorem input_without_frame_keys :
    let d := (exampleLeft [.press (.char '1'), ⟨.char 'e', false, true⟩, .release (.char 'e'),
      .release (.char 'e')]).desk
    d.session.frame = none ∧ SessionOp.IsInput .pumpKeys ∧ d.endings .pumpKeys = 2 ∧
      d.session.tool.bind Tool.nextTrack? = some 1 ∧
      (d.perform .pumpKeys).session.tool.bind Tool.nextTrack? = some 3 ∧
      (d.perform .pumpKeys).session.outbox = d.session.outbox := by
  intro d
  have hf : d.session.frame = none := by decide +kernel
  have hcount : d.endings .pumpKeys = 2 := by decide +kernel
  have hnext : d.session.tool.bind Tool.nextTrack? = some 1 := by decide +kernel
  have hends : Session.OnlyEnds (d.endings .pumpKeys) d.session (d.perform .pumpKeys).session :=
    Desk.input_without_frame trivial hf
  rw [hcount] at hends
  exact ⟨hf, trivial, hcount, hnext, hends.nextTrack?_eq hnext (by decide) (by decide),
    hends.outbox⟩

/-- The frame was left and none is shown. The key that ends a track ends the first one, on which
nothing was put yet, and puts off another frame. -/
theorem keys_end_track :
    let H := exampleLeft [.release (.char 'e')]
    Reachable H ∧ H.session.frame = none ∧
      H.session.tool.bind Tool.nextTrack? = some 1 ∧ H.session.deferred.length = 1 ∧
      (H.perform .pumpKeys).session.tool.bind Tool.nextTrack? = some 2 ∧
      (H.perform .pumpKeys).session.deferred.length = 2 := by
  intro H
  refine ⟨?_, by decide +kernel, by decide +kernel, by decide +kernel, by decide +kernel,
    by decide +kernel⟩
  exact ReachableUnder.performAll
    (.start (Or.inr ⟨exampleSet .detectionToTrack .detection, .default, 0, rfl⟩))
    (allowsAllb_sound (by decide +kernel))

end History

end Labeling
