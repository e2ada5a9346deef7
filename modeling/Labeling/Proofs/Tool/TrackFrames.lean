import Labeling.Proofs.Tool.Entries

/-!
# The frames of the track tool

The track tool keeps a list of detections for every frame of the item. The list is made with
the right length when an item is shown, and computed detections are cut off or filled up to
it. Stored detections are not: they replace the list as they are (`TrackTool.load_frames`), so
the list has as many entries as the item has frames only if that many were stored.

* `Tool.Reacts.spans`: no other reaction changes the length of the list;
* `TrackTool.handle_leads`: as long as the length is right, the tool leads only to frames
  that the item has, and to one of them at a time.
-/

namespace Labeling

/-! ## The engine -/

namespace TrackEngine

variable {α : Type} [Scalar α]

@[simp] theorem length_applyFresh (e : TrackEngine) (frames : List (List Detection)) :
    (e.applyFresh frames).2.frames.length = e.frames.length := by
  unfold applyFresh
  split
  · rfl
  · exact length_resized _ _ _

@[simp] theorem applyFreshMetadata_frames (e : TrackEngine) (metadata : Json) :
    (e.applyFreshMetadata metadata).2.frames = e.frames := by
  unfold applyFreshMetadata
  split <;> rfl

@[simp] theorem length_setTrack (e : TrackEngine) (frame index : Nat) (track : Option Int) :
    (e.setTrack frame index track).frames.length = e.frames.length :=
  List.length_modify ..

@[simp] theorem endTrack_frames (e : TrackEngine) : e.endTrack.2.frames = e.frames := rfl

@[simp] theorem length_assignNearest (e : TrackEngine) (frame : Nat) (p : Point α) :
    (e.assignNearest frame p).2.frames.length = e.frames.length := by
  unfold assignNearest
  split
  · rfl
  · exact e.length_setTrack _ _ _

@[simp] theorem length_unlabelAt (e : TrackEngine) (frame : Nat) (p : Point α) :
    (e.unlabelAt frame p).2.frames.length = e.frames.length := by
  unfold unlabelAt
  split
  · rfl
  · split
    · split
      · exact e.length_setTrack _ _ _
      · rfl
    · rfl

/-- A click keeps the number of frames. -/
@[simp] theorem length_click (e : TrackEngine) (frame : Nat) (p : Point α) :
    (e.click frame p).2.frames.length = e.frames.length := by
  unfold click
  split
  · rename_i index e' h
    have hlen := e.length_unlabelAt frame p
    rwa [h] at hlen
  · dsimp only
    split <;> exact e.length_assignNearest frame p

/-! ### Where labeling goes on -/

/-- A frame that is found lies among those that were looked at. -/
theorem firstUnlabeled?_bounds {frames : List (List Detection)} {index k : Nat}
    (h : firstUnlabeled? index frames = some k) : index ≤ k ∧ k < index + frames.length := by
  induction frames generalizing index with
  | nil => cases h
  | cons ds rest ih =>
    rw [firstUnlabeled?] at h
    rw [List.length_cons]
    split at h
    · cases h
      omega
    · have hrest := ih h
      omega

theorem unlabeledFrameFrom?_lt {e : TrackEngine} {start k : Nat}
    (h : e.unlabeledFrameFrom? start = some k) : start ≤ k ∧ k < e.frames.length := by
  have hbounds := firstUnlabeled?_bounds h
  rw [List.length_drop] at hbounds
  omega

theorem endTrack_lt {e : TrackEngine} {k : Nat} (h : e.endTrack.1 = some k) :
    k < e.frames.length :=
  (unlabeledFrameFrom?_lt h).2

/-- A click in a frame of the item leads to a frame of the item. -/
theorem click_lt {e e' : TrackEngine} {frame next : Nat} {p : Point α} {index : Option Nat}
    {ended : Bool} (h : e.click frame p = (.assigned index next ended, e'))
    (hf : frame < e.frames.length) : next < e.frames.length := by
  unfold click at h
  split at h
  · cases h
  · have hlen := e.length_assignNearest frame p
    dsimp only at h
    split at h
    · rename_i k hk
      cases h
      have hlt := (unlabeledFrameFrom?_lt hk).2
      rwa [hlen] at hlt
    · cases h
      -- the track is ended: labeling goes on from its start, or stays where it is
      cases hk : (e.assignNearest frame p).2.endTrack.1 with
      | none => exact hf
      | some k =>
        have hlt := endTrack_lt hk
        rwa [hlen] at hlt

end TrackEngine

/-! ## The tool -/

namespace TrackTool

/-- Stored detections take the place of all others, for as many frames as were stored. -/
theorem load_frames {data : Json} {frames : List (List Detection)}
    (h : detectionFrames? data = some frames) (hne : frames ≠ []) (t : TrackTool) (v : View) :
    (t.load v data).engine.frames = frames := by
  have hempty : frames.isEmpty = false := by simpa using hne
  unfold load
  rw [h]
  simp [TrackEngine.applyStored, hempty, render]

/-- Stored detections for no frames, or none at all, change nothing. -/
theorem load_eq_self {data : Json} (h : ∀ frames, detectionFrames? data = some frames → frames = [])
    (t : TrackTool) (v : View) : t.load v data = t := by
  unfold load
  cases hd : detectionFrames? data with
  | none => rfl
  | some frames =>
    obtain rfl := h frames hd
    rfl

@[simp] theorem length_applyFresh (t : TrackTool) (p : ToolPurpose) (value : Json) :
    (t.applyFresh p value).engine.frames.length = t.engine.frames.length := by
  unfold applyFresh
  split
  · split
    · exact t.engine.length_applyFresh _
    · rfl
  · exact congrArg List.length (t.engine.applyFreshMetadata_frames value)
  · rfl

@[simp] theorem length_fetched (t : TrackTool) (v : View) (p : ToolPurpose) (result : Response) :
    (t.fetched v p result).tool.engine.frames.length = t.engine.frames.length := by
  unfold fetched
  split
  · exact t.length_applyFresh p _
  · rfl

@[simp] theorem length_click (t : TrackTool) (v : View) (pos : Point Float) :
    (t.click v pos).tool.engine.frames.length = t.engine.frames.length := by
  unfold click
  split
  · rfl
  · rename_i k _
    split
    · have hlen := t.engine.length_click k (t.stage.toNatural pos)
      split <;> rename_i h <;> rw [h] at hlen <;> exact hlen
    · rfl

@[simp] theorem endTrack_frames (t : TrackTool) (v : View) :
    (t.endTrack v).tool.engine.frames = t.engine.frames := rfl

@[simp] theorem handleKey_frames (t : TrackTool) (v : View) (e : KeyEvent) :
    (t.handleKey v e).tool.engine.frames = t.engine.frames := by
  unfold handleKey
  split <;> rfl

@[simp] theorem imageLoaded_frames (t : TrackTool) (v : View) :
    (t.imageLoaded v).engine.frames = t.engine.frames := by
  unfold imageLoaded
  dsimp only [render]
  split <;> rfl

/-- When an item is shown, the list is made for its frames. -/
theorem length_itemShown (t : TrackTool) (v : View) :
    (t.itemShown v).tool.engine.frames.length = v.frameCount := by
  unfold itemShown
  split <;> exact List.length_replicate

/-- Stored detections are for as many frames as an item has, or for none. -/
def Fits (data : Json) (frameCount : Nat) : Prop :=
  ∀ frames, detectionFrames? data = some frames → frames ≠ [] → frames.length = frameCount

theorem length_load {t : TrackTool} {v : View} {data : Json}
    (h : t.engine.frames.length = v.frameCount) (hdata : Fits data v.frameCount) :
    (t.load v data).engine.frames.length = v.frameCount := by
  cases hd : detectionFrames? data with
  | none =>
    rw [load_eq_self fun frames hf => by rw [hd] at hf; cases hf]
    exact h
  | some frames =>
    by_cases hne : frames = []
    · rw [load_eq_self fun frames' hf => by rw [hd] at hf; cases hf; exact hne]
      exact h
    · rw [load_frames hd hne]
      exact hdata frames hd hne

/-- An event keeps the length of the list, unless it brings stored detections for another
number of frames. -/
theorem length_handle {t : TrackTool} {v : View} {e : ToolEvent}
    (h : t.engine.frames.length = v.frameCount)
    (he : ∀ data, e = .stored data → Fits data v.frameCount) :
    (t.handle v e).tool.engine.frames.length = v.frameCount := by
  cases e with
  | itemShown => exact t.length_itemShown v
  | stored data => exact length_load h (he data rfl)
  | imageLoaded => exact (congrArg List.length (t.imageLoaded_frames v)).trans h
  | fetched p result => exact (t.length_fetched v p result).trans h
  | key e => exact (congrArg List.length (t.handleKey_frames v e)).trans h
  | click p => exact (t.length_click v p).trans h
  | _ => exact h

/-! ### Where the tool leads -/

/-- Some commands lead to no frame, or to a single one, and then to one of the item. -/
def LeadsWithin (commands : List Command) (frameCount : Nat) : Prop :=
  ∀ n, .goToFrame n ∈ commands → commands = [.goToFrame n] ∧ n < frameCount

theorem leadsWithin_of_none {commands : List Command} {frameCount : Nat}
    (h : ∀ n, .goToFrame n ∉ commands) : LeadsWithin commands frameCount :=
  fun n hn => absurd hn (h n)

theorem leadsWithin_single {n frameCount : Nat} (h : n < frameCount) :
    LeadsWithin [.goToFrame n] frameCount := by
  intro m hm
  cases List.mem_singleton.1 hm
  exact ⟨rfl, h⟩

variable {t : TrackTool} {v : View}

theorem endTrack_leads (h : t.engine.frames.length = v.frameCount)
    (hf : ∀ k, v.frame = some k → k < v.frameCount) :
    LeadsWithin (t.endTrack v).commands v.frameCount := by
  unfold endTrack
  rcases hend : t.engine.endTrack with ⟨next, engine⟩
  cases next with
  | some k =>
    have hk : k < t.engine.frames.length := TrackEngine.endTrack_lt (congrArg Prod.fst hend)
    exact leadsWithin_single (h ▸ hk)
  | none =>
    show LeadsWithin (v.frame.map Command.goToFrame).toList v.frameCount
    cases hframe : v.frame with
    | none => exact leadsWithin_of_none fun n hn => by cases hn
    | some k => exact leadsWithin_single (hf k hframe)

theorem click_leads (h : t.engine.frames.length = v.frameCount)
    (hf : ∀ k, v.frame = some k → k < v.frameCount) (pos : Point Float) :
    LeadsWithin (t.click v pos).commands v.frameCount := by
  have hquiet : LeadsWithin [] v.frameCount := leadsWithin_of_none fun n hn => by cases hn
  unfold click
  split
  · exact hquiet
  · rename_i k hk
    split
    · split
      · exact hquiet
      · rename_i hclick
        refine leadsWithin_single ?_
        rw [← h]
        exact TrackEngine.click_lt hclick (h ▸ hf k hk)
    · exact hquiet

/-- An event leads to no frame, or to a single one that the item has. -/
theorem handle_leads (h : t.engine.frames.length = v.frameCount)
    (hf : ∀ k, v.frame = some k → k < v.frameCount) (e : ToolEvent) :
    LeadsWithin (t.handle v e).commands v.frameCount := by
  have hquiet : LeadsWithin [] v.frameCount := leadsWithin_of_none fun n hn => by cases hn
  cases e with
  | itemShown =>
    refine leadsWithin_of_none fun n => ?_
    show _ ∉ (t.itemShown v).commands
    unfold itemShown
    split <;> simp [fetchItem, Outcome.quiet]
  | fetched p result =>
    refine leadsWithin_of_none fun n => ?_
    show _ ∉ (t.fetched v p result).commands
    unfold fetched
    split <;> simp [Outcome.quiet]
  | key e =>
    show LeadsWithin (t.handleKey v e).commands v.frameCount
    unfold handleKey
    split
    · exact hquiet
    · exact endTrack_leads h hf
  | click p => exact click_leads h hf p
  | _ => exact hquiet

end TrackTool

/-! ## The tool of a session -/

namespace Tool

/-- The engine of the track tool. -/
def engine? : Tool → Option TrackEngine
  | .track t => some t.engine
  | _ => none

/-- The engine, if the tool has one, keeps a list of detections for each of some frames. -/
def Spans (t : Tool) (frameCount : Nat) : Prop :=
  ∀ e, t.engine? = some e → e.frames.length = frameCount

theorem spans_track {t : TrackTool} {n : Nat} :
    (Tool.track t).Spans n ↔ t.engine.frames.length = n :=
  ⟨fun h => h _ rfl, fun h e he => by cases he; exact h⟩

theorem Spans.resetFrame {t : Tool} {n : Nat} (h : t.Spans n) : t.resetFrame.Spans n := by
  cases t with
  | track t => exact spans_track.2 (spans_track.1 h)
  | _ => exact h

/-- When an item is shown, the list is made for its frames. -/
theorem itemShown_spans (t : Tool) (v : View) :
    (t.handle v .itemShown).tool.Spans v.frameCount := by
  cases t with
  | track t => exact spans_track.2 (t.length_itemShown v)
  | _ => exact fun e he => by cases he

theorem Spans.handle {t : Tool} {v : View} {e : ToolEvent} (h : t.Spans v.frameCount)
    (he : ∀ data, e = .stored data → TrackTool.Fits data v.frameCount) :
    (t.handle v e).tool.Spans v.frameCount := by
  cases t with
  | track t => exact spans_track.2 (TrackTool.length_handle (spans_track.1 h) he)
  | _ => exact fun e he => by cases he

/-- No reaction changes the length of the list, as long as the stored detections that the
tool is told of are for as many frames as the item has. -/
theorem Reacts.spans {told : ToolEvent → Prop} {t t' : Tool} {v : View} (h : t.Reacts told v t')
    (ht : t.Spans v.frameCount)
    (htold : ∀ data, told (.stored data) → TrackTool.Fits data v.frameCount) :
    t'.Spans v.frameCount := by
  rcases h with ⟨e, he, rfl⟩ | ⟨op, o, ho, rfl⟩
  · refine ht.handle fun data hdata => ?_
    subst hdata
    exact htold data he
  · rcases perform_eq_some ho with ⟨c, -, rfl⟩ | rfl | ⟨s, p, rfl, -, rfl⟩ | ⟨s, p, rfl, -, rfl⟩ |
      ⟨s, p, rfl, hp, rfl⟩ | ⟨s, p, rfl, -, rfl⟩
    · exact ht
    · exact ht.handle fun data hdata => by cases hdata
    · exact fun e he => by cases he
    · exact fun e he => by cases he
    · cases op <;> simp only [performTrack, Option.some.injEq, reduceCtorEq] at hp
      subst hp
      have hlen := spans_track.1 ht
      exact spans_track.2 hlen
    · exact fun e he => by cases he

end Tool

end Labeling
