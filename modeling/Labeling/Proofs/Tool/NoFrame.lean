import Labeling.Proofs.Tool.Arrival
import Labeling.Proofs.Tool.Entries

/-!
# Tools without a frame

While no frame is shown there is nothing to label, and what the user does is ignored
(`Tool.Ignores`). Every event has its own way to notice that there is no frame: the shape tool
finds no shapes to edit, the integer tool no text to set, and the track tool looks at the frame
before anything else when it is clicked.

The key that ends a track does not look. The track ends all the same (`Tool.handle_endKey`), and
this is the only exception (`Tool.handle_ignores`).
-/

namespace Labeling

/-- What the user does with the pointer or the keyboard. -/
def ToolEvent.IsInput : ToolEvent → Prop
  | .key _ => True
  | .click _ => True
  | .pointerMove _ => True
  | .dragStart _ => True
  | .dragMove _ => True
  | .dragEnd => True
  | _ => False

/-- The annotations of all frames, as a tool holds them. -/
inductive Marks where
  | shapes (frames : List (List Shape))
  | labels (labels : List String)
  | detections (frames : List (List Detection))
  | features (collection : FeatureCollection)

/-! ## The tools -/

theorem LabelTool.handleKey_of_no_frame (t : LabelTool) {v : View} (hv : v.frame = none)
    (e : KeyEvent) : ∃ reply, t.handleKey v e = ⟨t, [], reply⟩ := by
  have hpress : ∀ n, t.pressButton v n = .quiet t := by
    intro n
    unfold LabelTool.pressButton LabelTool.setInput
    rw [hv]
  unfold LabelTool.handleKey
  split
  · exact ⟨_, rfl⟩
  · split
    · exact ⟨_, rfl⟩
    · rw [hpress]
      exact ⟨_, rfl⟩

theorem TrackTool.click_of_no_frame (t : TrackTool) {v : View} (hv : v.frame = none)
    (p : Point Float) : t.click v p = .quiet t := by
  unfold TrackTool.click
  rw [hv]

/-- Without a frame to come back to, the end of a track leads to the first frame that still has a
detection on no track, or nowhere. -/
theorem TrackTool.endTrack_of_no_frame (t : TrackTool) {v : View} (hv : v.frame = none) :
    t.endTrack v = ⟨{ t with engine := t.engine.endTrack.2 },
      (t.engine.endTrack.1.map Command.goToFrame).toList, .nothing⟩ := by
  unfold TrackTool.endTrack
  rw [hv]
  rcases t.engine.endTrack with ⟨_ | frame, engine⟩ <;> rfl

namespace Tool

/-! ## What the user may change -/

/-- The annotations that a tool holds. -/
def marks : Tool → Marks
  | .shape t => .shapes t.frames
  | .int t => .labels t.labels
  | .track t => .detections t.engine.frames
  | .geoJson t => .features t.collection

/-- The number of the next track, if the tool puts anything on tracks. -/
def nextTrack? : Tool → Option Int
  | .track t => some t.engine.next
  | _ => none

/-- The key that ends a track, if the tool puts anything on tracks. -/
def endKey? : Tool → Option Key
  | .track t => some t.endKey
  | _ => none

/-- A key going up outside text fields is the one that ends a track. -/
def endsTrack (t : Tool) (e : KeyEvent) : Bool :=
  !e.isPress && !e.inField && t.endKey? == some e.key

theorem endsTrack_track (t : TrackTool) (e : KeyEvent) :
    (Tool.track t).endsTrack e = !(e.isPress || e.inField || e.key ≠ t.endKey) := by
  show (!e.isPress && !e.inField && some t.endKey == some e.key) = _
  by_cases hkey : e.key = t.endKey
  · simp [hkey]
  · have hne : t.endKey ≠ e.key := fun h => hkey h.symm
    simp [hkey, hne]

/-- Only the track tool ends tracks. -/
theorem eq_track_of_endsTrack {t : Tool} {e : KeyEvent} (h : t.endsTrack e = true) :
    ∃ t', t = .track t' := by
  have hkey : t.endKey? = some e.key := eq_of_beq (Bool.and_eq_true_iff.1 h).2
  cases t with
  | track t => exact ⟨t, rfl⟩
  | _ => cases hkey

/-- A call comes to nothing: nothing is asked for, and neither the annotations nor the number of
the next track have changed. -/
structure Ignores (t : Tool) (o : Outcome Tool) : Prop where
  commands : o.commands = []
  marks : o.tool.marks = t.marks
  nextTrack? : o.tool.nextTrack? = t.nextTrack?
  endKey? : o.tool.endKey? = t.endKey?

theorem ignores_self (t : Tool) (reply : Reply) : t.Ignores ⟨t, [], reply⟩ := ⟨rfl, rfl, rfl, rfl⟩

/-- A canvas may change while the shapes stay. -/
theorem ignores_of_shapes {t t' : ShapeTool} (h : t'.frames = t.frames) (reply : Reply) :
    (Tool.shape t).Ignores ⟨.shape t', [], reply⟩ :=
  ⟨rfl, congrArg Marks.shapes h, rfl, rfl⟩

theorem shape_ignores (t : ShapeTool) {v : View} (hv : v.frame = none) {e : ToolEvent}
    (he : e.IsInput) : (Tool.shape t).Ignores ((Tool.shape t).handle v e) := by
  have hedit : ∀ op otherwise,
      (Tool.shape t).Ignores ((t.editOutcome v op otherwise).map .shape) := by
    intro op otherwise
    rw [t.editOutcome_none hv]
    exact ignores_self _ _
  have hshow : ∀ op, (Tool.shape t).Ignores ((t.showOutcome v op).map .shape) :=
    fun op => ignores_of_shapes (t.editShown_frames v op) _
  cases e with
  | key e => exact hedit (.key e) _
  | click p => exact hedit (.click p) _
  | dragMove p => exact hedit (.dragMove p) _
  | pointerMove p => exact hshow (.pointerMove p)
  | dragStart p => exact hshow (.dragStart p)
  | dragEnd => exact hshow .dragEnd
  | _ => exact he.elim

theorem int_ignores (t : LabelTool) {v : View} (hv : v.frame = none) {e : ToolEvent}
    (he : e.IsInput) : (Tool.int t).Ignores ((Tool.int t).handle v e) := by
  cases e with
  | key e =>
    show (Tool.int t).Ignores ((t.handleKey v e).map .int)
    obtain ⟨reply, hkey⟩ := t.handleKey_of_no_frame hv e
    rw [hkey]
    exact ignores_self _ _
  | itemShown => exact he.elim
  | stored data => exact he.elim
  | _ => exact ignores_self _ _

theorem track_ignores (t : TrackTool) {v : View} (hv : v.frame = none) {e : ToolEvent}
    (he : e.IsInput) (hk : ∀ k, e = .key k → (Tool.track t).endsTrack k = false) :
    (Tool.track t).Ignores ((Tool.track t).handle v e) := by
  cases e with
  | key e =>
    show (Tool.track t).Ignores ((t.handleKey v e).map .track)
    have hother := hk e rfl
    rw [endsTrack_track, Bool.not_eq_false'] at hother
    unfold TrackTool.handleKey
    rw [if_pos hother]
    exact ignores_self _ _
  | click p =>
    show (Tool.track t).Ignores ((t.click v p).map .track)
    rw [t.click_of_no_frame hv]
    exact ignores_self _ _
  | pointerMove p => exact ignores_self _ _
  | dragStart p => exact ignores_self _ _
  | dragMove p => exact ignores_self _ _
  | dragEnd => exact ignores_self _ _
  | _ => exact he.elim

theorem geoJson_ignores (t : FeatureTool) (v : View) {e : ToolEvent} (he : e.IsInput) :
    (Tool.geoJson t).Ignores ((Tool.geoJson t).handle v e) := by
  cases e with
  | ready => exact he.elim
  | fetched p result => exact he.elim
  | _ => exact ignores_self _ _

/-! ## All tools -/

/-- While no frame is shown, what the user does is ignored, apart from the key that ends a
track. -/
theorem handle_ignores (t : Tool) {v : View} (hv : v.frame = none) {e : ToolEvent}
    (he : e.IsInput) (hk : ∀ k, e = .key k → t.endsTrack k = false) :
    t.Ignores (t.handle v e) := by
  cases t with
  | shape t => exact shape_ignores t hv he
  | int t => exact int_ignores t hv he
  | geoJson t => exact geoJson_ignores t v he
  | track t => exact track_ignores t hv he hk

/-- The key that ends a track does so although no frame is shown. -/
theorem handle_endKey {t : Tool} {v : View} (hv : v.frame = none) {e : KeyEvent}
    (he : t.endsTrack e = true) :
    ∃ t', t = .track t' ∧
      t.handle v (.key e) = ⟨.track { t' with engine := t'.engine.endTrack.2 },
        (t'.engine.endTrack.1.map Command.goToFrame).toList, .flag true⟩ := by
  obtain ⟨t, rfl⟩ := eq_track_of_endsTrack he
  refine ⟨t, rfl, ?_⟩
  rw [endsTrack_track, Bool.not_eq_true'] at he
  show (t.handleKey v e).map Tool.track = _
  unfold TrackTool.handleKey
  rw [if_neg (by rw [he]; exact Bool.false_ne_true), t.endTrack_of_no_frame hv]
  rfl

end Tool

end Labeling
