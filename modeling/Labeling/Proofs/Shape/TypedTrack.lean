import Labeling.Canvas.Edit
import Labeling.Proofs.Frames
import Labeling.Proofs.Shape.Stored
import Labeling.Proofs.Text.LeadingInt

/-!
# A track that is typed in

The track of the selected shape is typed into a text field. It is the number at the start of the
text, and no track if there is none, and when the shape is stored and read again it comes back with
that track (`Canvas.typed_track_saved`). There is one exception. Stored, zero stands for no track,
but the text field takes it for a number as any other: it is shown until the shape is read again,
and then it is gone (`Canvas.typed_zero_lost`).
-/

namespace Labeling

/-- What comes back of a shape that is stored and read again. -/
def Encoding.saved? (e : Encoding) (s : Shape) : Option Shape := do
  e.decode? (← WireShape.read? (e.encode s).toJson.sorted)

/-- A shape that can be drawn comes back. -/
theorem Encoding.saved?_eq (e : Encoding) {s : Shape} (hd : s.isDrawable = true) (hr : s.InRange) :
    e.saved? s = some (e.recovered s) := by
  unfold saved?
  rw [WireShape.read?_toJson (encode_inRange e hr)]
  exact decode?_readBack_encode e hd

@[simp] theorem Encoding.category_recovered (e : Encoding) (s : Shape) :
    (e.recovered s).category = s.category := by
  cases e <;> rfl

/-- A track comes back, unless it is zero. -/
theorem Encoding.track_recovered (e : Encoding) (s : Shape) :
    (e.recovered s).track = if s.track = some 0 then none else s.track := by
  have htrack : (e.recovered s).track = s.track.bind fun n => (some n).filter (· ≠ 0) := by
    cases e <;> rfl
  rw [htrack]
  cases s.track with
  | none => rfl
  | some n => by_cases hn : n = 0 <;> simp [hn]

namespace Canvas

variable {α : Type}

/-- The selected shape, and no other one, gets the track that is typed in. -/
theorem setSelectedTrack_eq {c : Canvas α} {shapes : List Shape} {i : Nat} {s : Shape}
    (hi : c.selected = some i) (hs : shapes[i]? = some s) (text : String) :
    c.setSelectedTrack shapes text = (true, shapes.set i (s.setTrackText text)) := by
  have hlt : i < shapes.length := (List.getElem?_eq_some_iff.1 hs).1
  unfold setSelectedTrack modifySelected
  rw [hi]
  dsimp only
  rw [if_pos hlt, modify_eq_set_of_getElem? _ hs]

/-- Whatever text is entered for the track of the selected shape, in either encoding the shape that
is shown then comes back from being stored, with its category and its track. Only a track of zero
does not come back: stored, it stands for no track. -/
theorem typed_track_saved (e : Encoding) (c : Canvas α) (shapes : List Shape) (text : String)
    {i : Nat} {s : Shape} (hi : c.selected = some i) (hs : shapes[i]? = some s)
    (hd : s.isDrawable = true) (hr : s.InRange) :
    ∃ shown back, c.setSelectedTrack shapes text = (true, shapes.set i shown) ∧
      shown.track = leadingInt? text ∧ shown.category = s.category ∧
      e.saved? shown = some back ∧ back.category = shown.category ∧
      (leadingInt? text ≠ some 0 →
        back.track = shown.track ∧ back.trackText = shown.trackText) ∧
      (leadingInt? text = some 0 → back.track = none) := by
  -- a track that is typed in fits, whatever the text is
  have hrange : (s.setTrackText text).InRange :=
    ⟨hr.points, fun _ hn => isInt64_of_leadingInt? hn⟩
  have hsaved : e.saved? (s.setTrackText text) = some (e.recovered (s.setTrackText text)) :=
    e.saved?_eq hd hrange
  have htrack : (e.recovered (s.setTrackText text)).track =
      if leadingInt? text = some 0 then none else leadingInt? text :=
    e.track_recovered (s.setTrackText text)
  refine ⟨s.setTrackText text, e.recovered (s.setTrackText text), setSelectedTrack_eq hi hs text,
    rfl, rfl, hsaved, e.category_recovered _, fun hne => ?_, fun hzero => ?_⟩
  · rw [if_neg hne] at htrack
    exact ⟨htrack, by rw [Shape.trackText, Shape.trackText, htrack]; rfl⟩
  · rw [htrack]
    exact if_pos hzero

/-- A canvas on which the second of two shapes is selected. -/
def secondSelected : Canvas Float :=
  { Canvas.new .box ["car"] .default with selected := some 1 }

/-- A line and a box with a category. -/
def lineAndBox : List Shape :=
  [.line ⟨5, 5⟩ ⟨0, 9⟩, (Shape.box ⟨1, 2⟩ ⟨30, 40⟩).withCategory "car"]

/-- The box gets a track from a text with more than its number, and comes back with it from a
dataset of detections. -/
theorem typed_track_saved_loose :
    ∃ shown back, secondSelected.setSelectedTrack lineAndBox " -12abc" =
        (true, lineAndBox.set 1 shown) ∧
      Encoding.detection.saved? shown = some back ∧ back.category = "car" ∧
      back.track = some (-12) ∧ back.trackText = "-12" := by
  have hread : leadingInt? " -12abc" = some (-12) := by decide +kernel
  have hr : ((Shape.box ⟨1, 2⟩ ⟨30, 40⟩).withCategory "car").InRange :=
    ⟨by unfold Pixel.InRange; decide, fun n hn => by cases hn⟩
  obtain ⟨shown, back, hset, htrack, hcategory, hsaved, hback, hkept, -⟩ :=
    typed_track_saved .detection secondSelected lineAndBox " -12abc" rfl rfl (by decide) hr
  obtain ⟨hsame, htext⟩ := hkept (by rw [hread]; decide)
  rw [hread] at htrack
  refine ⟨shown, back, hset, hsaved, hback.trans hcategory, hsame.trans htrack, ?_⟩
  rw [htext, Shape.trackText, htrack]
  rfl

/-- A zero that is typed in is shown, but in neither encoding does it come back. -/
theorem typed_zero_lost :
    ∃ shown, secondSelected.setSelectedTrack lineAndBox "0" = (true, lineAndBox.set 1 shown) ∧
      shown.isDrawable = true ∧ shown.kind = .box ∧ shown.points.length = 2 ∧
      shown.trackText = "0" ∧
      ∀ e : Encoding, ∃ back, e.saved? shown = some back ∧ back.track ≠ shown.track ∧
        back.trackText = "" := by
  refine ⟨((Shape.box ⟨1, 2⟩ ⟨30, 40⟩).withCategory "car").setTrackText "0", rfl, by decide, rfl,
    rfl, by decide +kernel, fun e => ?_⟩
  cases e <;> exact ⟨_, rfl, by decide +kernel, rfl⟩

end Canvas

end Labeling
