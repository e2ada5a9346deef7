import Labeling.Proofs.Session.FrameBounds
import Labeling.Proofs.Tool.TrackFrames

/-!
# The frames of the track tool are those of the session

While an item is shown the track tool keeps detections for exactly the frames of the item,
leads only to frames that the item has, and the frame to which it leads is the one that the
next round shows (`History.track_frames`). One thing has to be promised for this: stored
detections are for as many frames as the item has (`Session.StoresFrames`). The tool takes
them as they are, so with others it leads to frames that do not exist, and the round shows
another one in their place (`History.track_frames_stored_longer`).

`Session.tick_getFrame` says what a round does after a frame was asked for: everything that
waited before is superseded, and nothing but this frame is shown.
-/

namespace Labeling

namespace Session

variable {s s' : Session} {stored : Session → Json → Prop} {honest : Prop}

/-! ## The round after a frame was asked for -/

/-- Some work that waits will not be done, as something else took its place. -/
def Superseded (s : Session) : Deferred → Prop
  | .begin _ g => g ≠ s.generation ∧ s.config.stale = .discard
  | .showFrame _ n => n ≠ s.frameSeq ∨ s.frameCount = 0

theorem runDeferred_of_superseded {task : Deferred} (h : s.Superseded task) :
    s.runDeferred task = s := by
  cases task with
  | begin a g => exact if_pos h
  | showFrame index n => exact if_pos h

theorem foldl_runDeferred_of_superseded {tasks : List Deferred}
    (h : ∀ task ∈ tasks, s.Superseded task) : tasks.foldl runDeferred s = s := by
  induction tasks with
  | nil => rfl
  | cons task rest ih =>
    rw [List.foldl_cons, runDeferred_of_superseded (h task (List.mem_cons_self ..))]
    exact ih fun task' h' => h task' (List.mem_cons_of_mem _ h')

/-- While an item is shown, no other one is about to be, and leaving the frame supersedes what
was asked for before. -/
theorem Agenda.superseded {tasks : List Deferred} (h : s.Agenda tasks)
    (hd : s.config.stale = .discard) (ha : s.assignment.isSome = true) :
    ∀ task ∈ tasks, s.resetFrame.Superseded task := by
  intro task hm
  cases task with
  | begin a g =>
    refine ⟨fun hg => ?_, hd⟩
    rw [(h.begins a g hm).2 hg] at ha
    cases ha
  | showFrame index n =>
    have hn := (h.shows index n hm).1
    exact Or.inl (Nat.ne_of_lt (Nat.lt_succ_of_le hn))

@[simp] theorem loadFrameImage_frame (s : Session) : s.loadFrameImage.frame = s.frame := by
  rw [loadFrameImage_eq]
  split <;> rfl

/-- Asking for a frame leaves the one that is shown. -/
theorem getFrame_eq (ha : s.assignment.isSome = true) (hc : s.frameCount ≠ 0) (index : Int) :
    s.getFrame index =
      { s.resetFrame with deferred := s.deferred ++ [.showFrame index (s.frameSeq + 1)] } := by
  unfold getFrame
  rw [if_neg (by simp [Option.isSome_iff_ne_none.1 ha, hc])]
  rfl

/-- The round after a frame was asked for shows this frame and nothing else, if everything that
waited before is superseded. -/
theorem tick_getFrame_of_superseded (h : ∀ task ∈ s.deferred, s.resetFrame.Superseded task)
    (ha : s.assignment.isSome = true) (hc : s.frameCount ≠ 0) (index : Int) :
    (s.getFrame index).tick =
      { s.resetFrame with
        deferred := [], frame := some (index % signed s.frameCount).toNat }.loadFrameImage := by
  have hold : s.deferred.foldl runDeferred { s.resetFrame with deferred := [] } =
      { s.resetFrame with deferred := [] } :=
    foldl_runDeferred_of_superseded fun task hm => by
      have htask := h task hm
      cases task <;> exact htask
  rw [getFrame_eq ha hc]
  show (s.deferred ++ [Deferred.showFrame index (s.frameSeq + 1)]).foldl runDeferred
    { s.resetFrame with deferred := [] } = _
  rw [List.foldl_append, hold]
  exact if_neg (by rintro (hn | h0) <;> [exact hn rfl; exact hc h0])

/-- Under the policy that discards late answers, nothing else comes on show in that round. -/
theorem tick_getFrame (h : s.Agenda s.deferred) (hd : s.config.stale = .discard)
    (ha : s.assignment.isSome = true) (hc : s.frameCount ≠ 0) (index : Int) :
    (s.getFrame index).tick =
      { s.resetFrame with
        deferred := [], frame := some (index % signed s.frameCount).toNat }.loadFrameImage :=
  tick_getFrame_of_superseded (h.superseded hd ha) ha hc index

/-- A frame that exists is the one that is shown. -/
theorem tick_getFrame_frame (h : s.Agenda s.deferred) (hd : s.config.stale = .discard)
    (ha : s.assignment.isSome = true) (hc : s.frameCount < 2 ^ 63) {n : Nat}
    (hn : n < s.frameCount) : (s.getFrame (signed n)).tick.frame = some n := by
  rw [tick_getFrame h hd ha (by omega), loadFrameImage_frame]
  show some (signed n % signed s.frameCount).toNat = some n
  rw [signed_eq (show n < 2 ^ 63 by omega), signed_eq hc,
    Int.emod_eq_of_lt (by omega) (by omega), Int.toNat_natCast]

/-! ## One list of detections for every frame -/

/-- The stored detections that the tool is told of are for as many frames as the item has. -/
def StoresFrames (s : Session) : SessionOp → Prop
  | .complete t result => t.purpose = .existingData → s.isStale t = false →
      ∀ data, result.json = .ok data → TrackTool.Fits data s.frameCount
  | _ => True

/-- While an item is shown, the track tool has detections for each of its frames. -/
structure Spanned (s : Session) : Prop where
  loaded : s.tool.isSome = true → s.annotationSet.isSome = true
  spans : s.assignment.isSome = true → ∀ t, s.tool = some t → t.Spans s.frameCount

/-- While no item is shown nothing is required. -/
theorem spanned_of_no_item (hl : s.tool.isSome = true → s.annotationSet.isSome = true)
    (ha : s.assignment = none) : s.Spanned where
  loaded := hl
  spans h := by
    rw [ha] at h
    cases h

theorem Spanned.work (h : s.Spanned) (hw : Work stored honest s s')
    (hst : ∀ data, stored s data → TrackTool.Fits data s.frameCount) : s'.Spanned := by
  have hloaded := hw.sameItem.loaded_of_tool h.loaded
  cases hw with
  | fetch hf => cases hf <;> exact ⟨hloaded, h.spans⟩
  | @react set t t' hset ht hr =>
    refine ⟨hloaded, fun ha t'' ht'' => ?_⟩
    cases ht''
    exact hr.spans (v := s.view set) (h.spans ha _ ht) hst
  | leaveFrame index ha hc =>
    refine ⟨hloaded, fun ha t ht => ?_⟩
    obtain ⟨t', ht', rfl⟩ := Option.map_eq_some_iff.1 ht
    exact (h.spans ha t' ht').resetFrame
  | _ => exact ⟨hloaded, h.spans⟩

theorem Spanned.turn (h : s.Spanned) (ht : Turn s s') : s'.Spanned := by
  cases ht with
  | leaveItem message =>
    exact spanned_of_no_item (fun hs => h.loaded (s.isSome_map_resetFrame ▸ hs)) rfl
  | _ => exact ⟨h.loaded, h.spans⟩

/-- An item comes on show with an empty list of detections for each of its frames. -/
theorem Spanned.enter (h : s.Spanned) (a : Assignment) : (s.enter a).Spanned := by
  refine ⟨fun hs => h.loaded (s.isSome_enter_tool a ▸ hs), fun _ t ht => ?_⟩
  obtain ⟨t₀, set, -, rfl⟩ := enter_tool_eq h.loaded ht
  exact t₀.itemShown_spans _

/-! ## Where the tool leads -/

/-- What the tool asks for when it is told of an event. -/
def asks (s : Session) (e : ToolEvent) : List Command :=
  match s.annotationSet, s.tool with
  | some set, some t => (t.handle (s.view set) e).commands
  | _, _ => []

theorem asks_eq {set : AnnotationSet} {t : Tool} (hset : s.annotationSet = some set)
    (ht : s.tool = some t) (e : ToolEvent) : s.asks e = (t.handle (s.view set) e).commands := by
  unfold asks
  rw [hset, ht]

/-- Ending a track of the track tool carries out what the tool asks for. -/
theorem endTrack_eq {set : AnnotationSet} {t : TrackTool} (hset : s.annotationSet = some set)
    (ht : s.tool = some (.track t)) :
    s.endTrack = (t.endTrack (s.view set)).commands.foldl carryOut
      { s with tool := some (.track (t.endTrack (s.view set)).tool) } := by
  unfold endTrack withTool
  rw [hset, ht]
  rfl

/-- What is left to do for a tool that leads to a frame is to show it in the next round. -/
theorem tick_of_leads {commands : List Command} {tool : Tool}
    (hl : TrackTool.LeadsWithin commands s.frameCount) (h : s.Agenda s.deferred)
    (hd : s.config.stale = .discard) (ha : s.assignment.isSome = true)
    (hc : s.frameCount < 2 ^ 63) {n : Nat} (hn : .goToFrame n ∈ commands) :
    n < s.frameCount ∧
      (commands.foldl carryOut { s with tool := some tool }).tick.frame = some n := by
  obtain ⟨hcommands, hlt⟩ := hl n hn
  refine ⟨hlt, ?_⟩
  rw [hcommands]
  exact tick_getFrame_frame (s := { s with tool := some tool }) ⟨h.nodup, h.begins, h.shows⟩ hd ha
    hc hlt

end Session

namespace History

variable {H : History}

theorem spanned_invariant :
    Invariant False (fun s op => s.StoresFrames op) Always (fun _ _ s => s.Spanned) where
  promised h := h.elim
  blank taken s h := Session.spanned_of_no_item (fun hs => by rw [h.tool] at hs; cases hs)
    h.assignment
  installed taken s set h := Session.spanned_of_no_item (fun _ => rfl) h.assignment
  work taken s s' _ h hw := by
    refine h.work hw ?_
    rintro data ⟨t, result, hp, hs, hpromise, hdata⟩
    exact hpromise hp hs data hdata
  fetch taken due s s' _ h hf := by
    cases hf <;> exact ⟨h.loaded, h.spans⟩
  turn taken s s' _ h ht := h.turn ht
  listed taken s keys _ h := ⟨h.loaded, h.spans⟩
  asked taken s a source _ h _ := ⟨h.loaded, h.spans⟩
  followed taken s t a result known _ h _ _ _ :=
    Session.spanned_of_no_item (fun hs => h.loaded (s.isSome_map_resetFrame ▸ hs)) rfl
  taken taken s _ h := ⟨h.loaded, h.spans⟩
  round taken s _ h := ⟨h.loaded, h.spans⟩
  dropped taken task due s _ h := h
  entered taken a g due s _ h _ := h.enter a
  shown taken index due s _ h _ := ⟨h.loaded, h.spans⟩

/-- Under the policy that discards late answers, and as long as the stored detections are for
the frames of their item: while an item is shown, the track tool has detections for each of
its frames, and whatever happens to the tool it leads only to one of them, which is the frame
that the next round shows. -/
theorem track_frames (h : ReachableUnder (fun s op => s.CountsFrames op ∧ s.StoresFrames op) H)
    (hd : H.session.config.stale = .discard) (ha : H.session.assignment.isSome = true)
    {t : TrackTool} (ht : H.session.tool = some (.track t)) :
    t.engine.frames.length = H.session.frameCount ∧
    (∀ e n, .goToFrame n ∈ H.session.asks e →
      n < H.session.frameCount ∧ (H.session.notify e).tick.frame = some n) ∧
    ∀ set n, H.session.annotationSet = some set →
      .goToFrame n ∈ (t.endTrack (H.session.view set)).commands →
        n < H.session.frameCount ∧ H.session.endTrack.tick.frame = some n := by
  have hspanned := spanned_invariant.reachable (h.mono fun _ _ hp => hp.2)
  obtain ⟨hplanned, hframed⟩ :=
    (framed_invariant.and agenda_invariant).reachable (h.mono fun _ _ hp => hp.1)
  have hagenda : H.session.Agenda H.session.deferred := hplanned hd
  have hbounded := hframed hd
  have hlen : t.engine.frames.length = H.session.frameCount :=
    Tool.spans_track.1 (hspanned.spans ha _ ht)
  have hframe : ∀ k, H.session.frame = some k → k < H.session.frameCount :=
    fun k hk => (hbounded.frame k hk).2
  have hc := (hbounded.count (Or.inl ha)).2
  refine ⟨hlen, fun e n hn => ?_, fun set n hset hn => ?_⟩
  · obtain ⟨set, hset⟩ := Option.isSome_iff_exists.1 (hspanned.loaded (by rw [ht]; rfl))
    rw [Session.asks_eq hset ht] at hn
    rw [Session.notify_eq hset ht]
    exact Session.tick_of_leads (t.handle_leads (v := H.session.view set) hlen hframe e) hagenda
      hd ha hc hn
  · rw [Session.endTrack_eq hset ht]
    exact Session.tick_of_leads (t.endTrack_leads (v := H.session.view set) hlen hframe) hagenda
      hd ha hc hn

/-- An item of a single frame is shown, and some stored detections arrived. -/
def exampleTracking (stored : List (List Detection)) : History :=
  (ofSet (exampleSet .detectionToTrack .detection)).performAll
    [.complete ⟨0, .assignment, 1⟩ (.ok (.json (.arr [.str "a", .bool true]))),
      .complete ⟨1, .itemMeta ⟨"a", true, none⟩, 1⟩ (.ok (.json .null)), .tick,
      .complete ⟨5, .existingData, 1⟩ (.ok (.json (detectionFramesToJson stored)))]

/-- One detection was stored for the one frame. A click puts it on a track, and the frame is
shown again. -/
theorem track_frames_click :
    let H := (exampleTracking [[.plain 0 0 9 9]]).perform
      (.complete ⟨4, .frameImage 1, 1⟩ (.ok (.image ⟨100, 100⟩)))
    H.session.config.stale = .discard ∧ H.session.assignment.isSome = true ∧
      H.session.frameCount = 1 ∧
      (H.session.tool.bind Tool.engine?).map (fun e => e.frames.length) = some 1 ∧
      .goToFrame 0 ∈ H.session.asks (.click ⟨5, 5⟩) ∧
      (H.session.notify (.click ⟨5, 5⟩)).tick.frame = some 0 := by
  intro H
  have hreach : ReachableUnder (fun s op => s.CountsFrames op ∧ s.StoresFrames op) H := by
    refine .step ((reachable_ofSet _).performAll ⟨allowsb_sound (by decide +kernel), ⟨?_, ?_⟩,
      allowsb_sound (by decide +kernel), ⟨?_, ?_⟩, trivial, ⟨trivial, trivial⟩,
      allowsb_sound (by decide +kernel), ⟨?_, ?_⟩, trivial⟩) (allowsb_sound (by decide +kernel))
      ⟨?_, ?_⟩
    · exact fun a known hp _ => by cases hp
    · exact fun hp => by cases hp
    · intro a known _ hk
      cases hk
      decide +kernel
    · exact fun hp => by cases hp
    · exact fun a known hp _ => by cases hp
    · intro _ _ data hdata frames hframes _
      cases hdata
      have hlen : some 1 = some frames.length :=
        (show some 1 = (detectionFrames? _).map List.length by decide +kernel).trans
          (congrArg (Option.map List.length) hframes)
      rw [← Option.some.inj hlen]
      decide +kernel
    · exact fun a known hp _ => by cases hp
    · exact fun hp => by cases hp
  have hd : H.session.config.stale = .discard := by decide +kernel
  have ha : H.session.assignment.isSome = true := by decide +kernel
  have hc : H.session.frameCount = 1 := by decide +kernel
  have hasks : .goToFrame 0 ∈ H.session.asks (.click ⟨5, 5⟩) := by decide +kernel
  obtain ⟨tool, htool, hkind⟩ := Option.map_eq_some_iff.1
    (show H.session.tool.map Tool.kind = some .detectionToTrack by decide +kernel)
  cases tool with
  | track t =>
    obtain ⟨hlen, hleads, -⟩ := track_frames hreach hd ha htool
    refine ⟨hd, ha, hc, ?_, hasks, (hleads _ 0 hasks).2⟩
    rw [htool, ← hc, ← hlen]
    rfl
  | _ => cases hkind

/-- Three frames were stored for the one frame of the item. A click leads to the third, and the
next round shows the first. -/
theorem track_frames_stored_longer :
    let H := (exampleTracking [[], [], [.plain 0 0 9 9]]).perform
      (.complete ⟨4, .frameImage 1, 1⟩ (.ok (.image ⟨100, 100⟩)))
    Reachable H ∧ H.session.config.stale = .discard ∧ H.session.assignment.isSome = true ∧
      H.session.frameCount = 1 ∧
      (H.session.tool.bind Tool.engine?).map (fun e => e.frames.length) = some 3 ∧
      H.session.asks (.click ⟨5, 5⟩) = [.goToFrame 2] ∧
      (H.session.notify (.click ⟨5, 5⟩)).tick.frame = some 0 := by
  intro H
  refine ⟨?_, by decide +kernel, by decide +kernel, by decide +kernel, by decide +kernel,
    by decide +kernel, by decide +kernel⟩
  exact .step ((reachable_ofSet _).performAll (allowsAllb_sound (by decide +kernel)))
    (allowsb_sound (by decide +kernel)) trivial

end History

end Labeling
