import Labeling.Proofs.Shape.Stored

/-!
# Shapes that survive being stored

An encoding keeps a shape (`Encoding.Keeps`) if the shape is just what comes back when it is
stored and read again. It must have enough pixels to be drawn, its track must not be zero, which
stands for no track, and for detections it must be a box between two corners.

* `Encoding.keepsAll_of_frames?`: every shape that is read from stored data is kept;
* `Encoding.frames?_framesToJson_iff`: frames survive being stored if and only if all their
  shapes are kept;
* `Encoding.frames?_roundTrip`: so what was read survives being stored again, whatever the data
  it was read from, and so do frames that were made otherwise from shapes that are kept.

Data need not survive being read. A shape that is incomplete is dropped, a track of zero and an
empty category are left out, and the fields change their order. One round is enough to get rid of
all that.
-/

namespace Labeling

/-! ## What is read from a stored shape -/

theorem track_ne_zero_of_trackOf? {v : Json} {track : Option Int} (h : trackOf? v = some track) :
    track ≠ some 0 := by
  unfold trackOf? at h
  obtain ⟨given, -, h⟩ := Option.bind_eq_some_iff.1 h
  rintro rfl
  have hzero := (Option.filter_eq_some_iff.1 (Option.some.inj h)).2
  exact of_decide_eq_true hzero rfl

theorem sorted_of_attributes? {v : Json} {fields : Fields String}
    (h : attributes? v = some fields) : Fields.Sorted fields := by
  unfold attributes? at h
  simp only [Option.pure_def, Option.bind_eq_bind, Option.bind_eq_some_iff, Option.some.injEq] at h
  obtain ⟨_, -, pairs, -, rfl⟩ := h
  exact Fields.sorted_ofList pairs

/-- A stored shape whose track is not zero, with its attributes in order. -/
structure WireShape.Normal (w : WireShape) : Prop where
  track : w.track ≠ some 0
  attributes : ∀ fields, w.attributes = some fields → Fields.Sorted fields

theorem WireShape.normal_of_read? {v : Json} {w : WireShape} (h : WireShape.read? v = some w) :
    w.Normal := by
  obtain ⟨r, hr⟩ := exists_readFrom h
  refine ⟨?_, fun fields hfields => ?_⟩
  · rcases Record.read_of_given hr.track with hnone | ⟨u, hu⟩
    · rw [hnone]
      exact fun hzero => by cases hzero
    · exact track_ne_zero_of_trackOf? hu
  · have hattributes := hr.attributes
    rw [hfields] at hattributes
    obtain ⟨u, hu⟩ := Record.read_of_optional hattributes
    exact sorted_of_attributes? hu

namespace Encoding

/-! ## Shapes that are kept -/

/-- A shape that loses nothing under an encoding. -/
structure Keeps (e : Encoding) (s : Shape) : Prop where
  drawable : s.isDrawable = true
  /-- Pixels and tracks are numbers of 64 bits. -/
  inRange : s.InRange
  /-- Zero stands for no track. -/
  track : s.track ≠ some 0
  /-- Attributes are held in the order of their names, each name once. -/
  attributes : Fields.Sorted s.attributes
  /-- Only the two corners of a box are stored of a detection. -/
  box : e = .detection → s.kind = .box ∧ s.points.length = 2

variable {e : Encoding} {s : Shape}

theorem corners_of_box (α : Type) [Scalar α] {p q : Pixel} (hk : s.kind = .box)
    (hp : s.points = [p, q]) : corners α s = (p, q) := by
  unfold corners
  rw [hk, hp]

/-- A shape that is kept comes back as it is. -/
theorem Keeps.recovered_eq (h : e.Keeps s) : e.recovered s = s := by
  have htrack : (s.track.bind fun n => (some n).filter (· ≠ 0)) = s.track := by
    have hzero := h.track
    cases hs : s.track with
    | none => rfl
    | some n =>
      rw [hs] at hzero
      have hn : n ≠ 0 := fun he => hzero (congrArg some he)
      simp [hn]
  have hattributes : Fields.ofList s.attributes = s.attributes :=
    Fields.ofList_of_sorted h.attributes
  unfold recovered
  rw [htrack, hattributes]
  cases e with
  | shape => rfl
  | detection =>
    obtain ⟨hk, hlen⟩ := h.box rfl
    obtain ⟨p, q, hpq⟩ : ∃ p q, s.points = [p, q] := by
      match s.points, hlen with
      | [p, q], _ => exact ⟨p, q, rfl⟩
    dsimp only
    rw [corners_of_box Float hk hpq, ← hpq, ← hk]

/-- A detection has the outline of a box between two corners. -/
theorem box_of_outline? {w : WireShape} {kind : ShapeKind} {points : List Pixel}
    (h : Encoding.detection.outline? w = some (kind, points)) :
    kind = .box ∧ points.length = 2 := by
  simp only [outline?, Option.pure_def, Option.bind_eq_bind, Option.bind_eq_some_iff,
    Option.some.injEq] at h
  obtain ⟨left, -, top, -, right, -, bottom, -, he⟩ := h
  cases he
  exact ⟨rfl, rfl⟩

/-- Whatever is read is kept. -/
theorem keeps_of_decode? {v : Json} {w : WireShape} (hw : WireShape.read? v = some w)
    (h : e.decode? w = some s) : e.Keeps s := by
  obtain ⟨hdrawable, hrange⟩ := decode?_sound (WireShape.inRange_of_read? hw) h
  have hnormal := WireShape.normal_of_read? hw
  obtain ⟨-, kind, points, houtline, rfl⟩ := decode?_eq_some h
  refine ⟨hdrawable, hrange, hnormal.track, ?_, ?_⟩
  · show Fields.Sorted (w.attributes.getD [])
    cases hfields : w.attributes with
    | none => exact List.Pairwise.nil
    | some fields => exact hnormal.attributes fields hfields
  · rintro rfl
    exact box_of_outline? houtline

/-! ## Frames -/

/-- All shapes of all frames are kept. -/
def KeepsAll (e : Encoding) (frames : List (List Shape)) : Prop :=
  ∀ shapes ∈ frames, ∀ s ∈ shapes, e.Keeps s

theorem keepsAll_of_frames? {data : Json} {frames : List (List Shape)}
    (h : e.frames? data = some frames) : e.KeepsAll frames := by
  intro shapes hshapes s hs
  obtain ⟨v, w, hread, hdecode⟩ := exists_of_mem_frames? h hshapes hs
  exact keeps_of_decode? hread hdecode

/-- The data that is read is an array with one item for each frame. -/
theorem items_of_frames? {data : Json} {frames : List (List Shape)}
    (h : e.frames? data = some frames) :
    ∃ items, data = .arr items ∧ frames.length = items.length := by
  unfold frames? Json.listOf at h
  obtain ⟨wire, hwire, h⟩ := Option.bind_eq_some_iff.1 h
  obtain ⟨items, hitems, hwire⟩ := Option.bind_eq_some_iff.1 hwire
  cases h
  refine ⟨items, ?_, ?_⟩
  · cases data with
    | arr items' =>
      cases hitems
      rfl
    | _ => cases hitems
  · rw [List.length_map]
    exact length_of_mapM_eq_some hwire

/-- Frames survive being stored if and only if all their shapes are kept. -/
theorem frames?_framesToJson_iff (e : Encoding) (frames : List (List Shape)) :
    e.frames? (e.framesToJson frames) = some frames ↔ e.KeepsAll frames := by
  refine ⟨keepsAll_of_frames?, fun h => ?_⟩
  rw [frames?_framesToJson e fun shapes hshapes s hs =>
    ⟨(h shapes hshapes s hs).drawable, (h shapes hshapes s hs).inRange⟩]
  refine congrArg some ((List.map_congr_left fun shapes hshapes => ?_).trans (List.map_id frames))
  exact (List.map_congr_left fun s hs => (h shapes hshapes s hs).recovered_eq).trans
    (List.map_id shapes)

/-- What was read from data survives being stored again, with a frame for each item of the data,
and so do any other frames whose shapes are kept. -/
theorem frames?_roundTrip (e : Encoding) :
    (∀ data frames, e.frames? data = some frames →
      e.frames? (e.framesToJson frames) = some frames ∧
        ∃ items, data = .arr items ∧ frames.length = items.length) ∧
    ∀ frames, e.KeepsAll frames → e.frames? (e.framesToJson frames) = some frames :=
  ⟨fun _ frames h =>
      ⟨(e.frames?_framesToJson_iff frames).2 (keepsAll_of_frames? h), items_of_frames? h⟩,
    fun frames => (e.frames?_framesToJson_iff frames).2⟩

/-! ### An example -/

/-- Stored frames that are not as they would be written: the first shape has no kind, a track of
zero and attributes out of order, and the other two are incomplete. -/
def looseData : Json :=
  .arr [.arr [
      .obj [("TrackID", .int 0), ("Points", .arr [.arr [.int 7, .int 8], .arr [.int 3, .int 4]]),
        ("Metadata", .obj [("b", .str "2"), ("a", .str "1")])],
      .obj [("Type", .str "polygon"), ("Points", .arr [.arr [.int 1, .int 2]])],
      .obj [("Left", .int 5)]],
    .arr []]

/-- The frames that are read from it. -/
def looseFrames : List (List Shape) :=
  [[⟨.box, [⟨7, 8⟩, ⟨3, 4⟩], "", none, [("a", "1"), ("b", "2")]⟩], []]

/-- A detection on a track. -/
def trackedBox : Shape := ⟨.box, [⟨-3, 0⟩, ⟨20, 9⟩], "car", some (-7), [("seen", "twice")]⟩

theorem keepsAll_trackedBox : Encoding.detection.KeepsAll [[], [trackedBox, trackedBox]] := by
  have hkeeps : Encoding.detection.Keeps trackedBox :=
    { drawable := by decide
      inRange := ⟨by unfold Pixel.InRange; decide, fun n hn => by cases hn; decide⟩
      track := by decide
      attributes := by unfold Fields.Sorted; decide
      box := fun _ => by decide }
  simp only [KeepsAll, List.forall_mem_cons, List.not_mem_nil, false_implies, implies_true, hkeeps,
    and_self]

/-- Both parts, for frames that are read with losses and for frames that were never stored. -/
theorem frames?_roundTrip_loose :
    (Encoding.shape.frames? looseData = some looseFrames ∧
      Encoding.shape.frames? (Encoding.shape.framesToJson looseFrames) = some looseFrames) ∧
    Encoding.detection.KeepsAll [[], [trackedBox, trackedBox]] ∧
      Encoding.detection.frames?
          (Encoding.detection.framesToJson [[], [trackedBox, trackedBox]]) =
        some [[], [trackedBox, trackedBox]] := by
  have hread : Encoding.shape.frames? looseData = some looseFrames := by decide +kernel
  exact ⟨⟨hread, ((frames?_roundTrip .shape).1 looseData looseFrames hread).1⟩,
    keepsAll_trackedBox, (frames?_roundTrip .detection).2 _ keepsAll_trackedBox⟩

end Encoding

end Labeling
