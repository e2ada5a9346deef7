import Labeling.Proofs.Tool.TrackFrames
import Labeling.Proofs.Tool.Entries

/-!
# Entries for an item

A tool that goes through items has something for the frames of the item that is shown, whatever
is stored for it (`Tool.Filled`). The shape tool and the integer tool have one entry for each
frame. The track tool takes stored detections as they are, for any number of frames but zero, so
all that can be said of its list is that it is not empty.

* `Tool.itemShown_filled`: the entries are made when an item is shown;
* `Tool.Reacts.filled`: no reaction takes them away.
-/

namespace Labeling

/-- Neither an event nor stored detections empty the list of an item that has frames. -/
theorem TrackTool.handle_frames_ne_nil {t : TrackTool} {v : View} (hc : v.frameCount ≠ 0)
    (h : t.engine.frames ≠ []) (e : ToolEvent) : (t.handle v e).tool.engine.frames ≠ [] := by
  have hlen : ∀ {t' : TrackTool}, t'.engine.frames.length = t.engine.frames.length →
      t'.engine.frames ≠ [] := by
    intro t' heq hnil
    rw [hnil] at heq
    exact h (List.length_eq_zero_iff.1 heq.symm)
  cases e with
  | itemShown =>
    intro hnil
    have heq := t.length_itemShown v
    rw [show (t.itemShown v).tool.engine.frames = [] from hnil] at heq
    exact hc heq.symm
  | stored data =>
    show (t.load v data).engine.frames ≠ []
    by_cases hdata : ∃ frames, detectionFrames? data = some frames ∧ frames ≠ []
    · obtain ⟨frames, hframes, hne⟩ := hdata
      rw [TrackTool.load_frames hframes hne]
      exact hne
    · have hempty : ∀ frames, detectionFrames? data = some frames → frames = [] := by
        intro frames hframes
        by_cases hne : frames = []
        · exact hne
        · exact absurd ⟨frames, hframes, hne⟩ hdata
      rw [TrackTool.load_eq_self hempty]
      exact h
  | imageLoaded => exact hlen (congrArg List.length (t.imageLoaded_frames v))
  | fetched p result => exact hlen (t.length_fetched v p result)
  | key e => exact hlen (congrArg List.length (t.handleKey_frames v e))
  | click p => exact hlen (t.length_click v p)
  | _ => exact h

namespace Tool

/-- A tool has one entry for each of some frames or, if it puts detections on tracks, has
detections for some frames as long as there are any. -/
structure Filled (t : Tool) (frameCount : Nat) : Prop where
  sized : t.Sized frameCount
  tracked : frameCount ≠ 0 → ∀ e, t.engine? = some e → e.frames ≠ []

theorem Filled.resetFrame {t : Tool} {n : Nat} (h : t.Filled n) : t.resetFrame.Filled n where
  sized m hm := by
    rw [t.entries?_resetFrame] at hm
    exact h.sized m hm
  tracked hn e he := by
    cases t with
    | track t => exact h.tracked hn e he
    | _ => cases he

/-- The entries are made when an item is shown. -/
theorem itemShown_filled (t : Tool) (v : View) :
    (t.handle v .itemShown).tool.Filled v.frameCount where
  sized := t.itemShown_sized v
  tracked hn e he hnil := by
    have hlen : e.frames.length = v.frameCount := t.itemShown_spans v e he
    rw [hnil] at hlen
    exact hn hlen.symm

theorem handle_filled {t : Tool} {v : View} (h : t.Filled v.frameCount) (e : ToolEvent) :
    (t.handle v e).tool.Filled v.frameCount where
  sized := handle_sized h.sized e
  tracked hn engine hengine := by
    cases t with
    | track t =>
      cases hengine
      exact TrackTool.handle_frames_ne_nil hn (h.tracked hn _ rfl) e
    | _ => cases hengine

/-- No reaction takes the entries away. -/
theorem Reacts.filled {told : ToolEvent → Prop} {t t' : Tool} {v : View} (hr : t.Reacts told v t')
    (h : t.Filled v.frameCount) : t'.Filled v.frameCount := by
  refine ⟨hr.sized h.sized, ?_⟩
  rcases hr with ⟨e, -, rfl⟩ | ⟨op, o, ho, rfl⟩
  · exact (handle_filled h e).tracked
  · rcases perform_eq_some ho with ⟨c, -, rfl⟩ | rfl | ⟨s, p, rfl, -, rfl⟩ | ⟨s, p, rfl, -, rfl⟩ |
      ⟨s, p, rfl, hp, rfl⟩ | ⟨s, p, rfl, -, rfl⟩
    · exact h.tracked
    · exact (handle_filled h .render).tracked
    · exact fun _ e he => by cases he
    · exact fun _ e he => by cases he
    · intro hn e he
      cases op <;> simp only [performTrack, Option.some.injEq, reduceCtorEq] at hp
      subst hp
      cases he
      exact h.tracked hn s.engine rfl
    · exact fun _ e he => by cases he

end Tool

end Labeling
