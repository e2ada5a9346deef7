import Labeling.Proofs.Tracking.Stored

/-!
# Detections that are read as shapes

A dataset of detections has two readers. The track tool reads detections (`detectionFrames?`) and
the shape tool reads boxes (`Encoding.frames?`). Of objects that have no fields but those of a
detection (`Json.usesOnly`), the shape tool reads the boxes that the track tool reads, frame by
frame and in the same order. But a frame that is `null` has no detections for the one, and to the
other it is a reason to refuse all of them (`Encoding.frames?_of_detectionFrames?`).
-/

namespace Labeling

/-! ## The fields of the objects in a value -/

namespace Json

mutual

/-- All objects in a value, at any depth, have fields of some names only. -/
def usesOnly (names : List String) : Json → Bool
  | .arr items => itemsUseOnly names items
  | .obj fields => fieldsUseOnly names fields
  | .null => true
  | .bool _ => true
  | .int _ => true
  | .float _ => true
  | .str _ => true

/-- `usesOnly` of every item. -/
def itemsUseOnly (names : List String) : List Json → Bool
  | [] => true
  | v :: rest => usesOnly names v && itemsUseOnly names rest

/-- The names of some fields are among others, and so are those of the objects in them. -/
def fieldsUseOnly (names : List String) : List (String × Json) → Bool
  | [] => true
  | (n, v) :: rest => names.contains n && usesOnly names v && fieldsUseOnly names rest

end

variable {names : List String}

theorem usesOnly_of_mem_items {items : List Json} (h : (arr items).usesOnly names = true) {v : Json}
    (hv : v ∈ items) : v.usesOnly names = true := by
  rw [usesOnly] at h
  induction items with
  | nil => cases hv
  | cons w rest ih =>
    rw [itemsUseOnly, Bool.and_eq_true] at h
    rcases List.mem_cons.1 hv with rfl | hv
    · exact h.1
    · exact ih h.2 hv

theorem mem_names_of_usesOnly {fields : List (String × Json)}
    (h : (obj fields).usesOnly names = true) {f : String × Json} (hf : f ∈ fields) :
    f.1 ∈ names := by
  rw [usesOnly] at h
  induction fields with
  | nil => cases hf
  | cons g rest ih =>
    obtain ⟨n, v⟩ := g
    rw [fieldsUseOnly, Bool.and_eq_true, Bool.and_eq_true] at h
    rcases List.mem_cons.1 hf with rfl | hf
    · exact List.contains_iff_mem.1 h.1.1
    · exact ih h.2 hf

end Json

/-! ## A field in two records -/

namespace Record

variable {γ : Type} {fields : List (String × Json)} {name : String}

/-- A field of a name that no field has is not there. -/
theorem optional_of_not_mem (h : ∀ f ∈ fields, f.1 ≠ name) (position : Nat)
    (read : Json → Option γ) : (Record.named fields).optional position name read = some none := by
  have hnone : fields.filter (fun f => [name].contains f.1) = [] :=
    List.filter_eq_nil_iff.2 fun f hf hc => h f hf (by simpa using hc)
  unfold optional given field?
  dsimp only
  rw [hnone]
  rfl

/-- A field that is there is also read where it need not be, at whatever position. -/
theorem optional_of_required {position : Nat} {read : Json → Option γ} {c : γ}
    (h : (Record.named fields).required position name read = some c)
    (hnull : read .null = none) (position' : Nat) :
    (Record.named fields).optional position' name read = some (some c) := by
  unfold required at h
  obtain ⟨value, hvalue, h⟩ := Option.bind_eq_some_iff.1 h
  cases value with
  | none => cases h
  | some v =>
    have hread : read v = some c := h
    have hv : v ≠ .null := by
      rintro rfl
      rw [hnull] at hread
      cases hread
    have hfield : (Record.named fields).field? position' [name] = some ((some v).map id) := hvalue
    refine optional_of_field? (f := fun _ => c) hfield fun w hw => ?_
    cases hw
    exact Json.nullable_eq_some hv hread

end Record

/-! ## Detections and boxes -/

namespace Detection

/-- A detection as a stored shape. -/
def asWire (d : Detection) : WireShape :=
  { kind := none, points := none
    left := some d.left, top := some d.top, right := some d.right, bottom := some d.bottom
    category := d.category, track := d.track, attributes := none }

/-- The box of a detection, on its track and with its category, or without one. -/
def asShape (d : Detection) : Shape :=
  { kind := .box, points := [⟨d.left, d.top⟩, ⟨d.right, d.bottom⟩]
    category := d.category.getD "", track := d.track, attributes := [] }

theorem decode?_asWire (d : Detection) : Encoding.detection.decode? d.asWire = some d.asShape := rfl

/-- An object with no other fields that is read as a detection is also read as a stored shape. -/
theorem read?_asWire {v : Json} {d : Detection} (hv : v.usesOnly fieldNames = true)
    (h : read? v = some d) : WireShape.read? v = some d.asWire := by
  unfold read? at h
  simp only [Option.pure_def, Option.bind_eq_bind, Option.bind_eq_some_iff, Option.some.injEq] at h
  obtain ⟨fields, hobj, left, hleft, top, htop, right, hright, bottom, hbottom, track, htrack,
    category, hcategory, rfl⟩ := h
  obtain rfl : v = .obj fields := by
    cases v <;> simp_all [Json.obj?]
  have hother : ∀ name : String, name ∉ fieldNames → ∀ f ∈ fields, f.1 ≠ name :=
    fun _ hname f hf he => hname (he ▸ Json.mem_names_of_usesOnly hv hf)
  have hrecord : Source.recordOf (Json.obj fields) 9 = some (.named fields) := rfl
  have hcategory' : (Record.named fields).optional 6 "Category" Json.str? = some category :=
    hcategory
  have htrack' : (Record.named fields).given 7 ["TrackID"] trackOf? none = some track := htrack
  unfold WireShape.read?
  rw [hrecord]
  simp only [Option.bind_eq_bind, Option.bind_some, hcategory', htrack',
    Record.optional_of_not_mem (hother "Type" (by decide)),
    Record.optional_of_not_mem (hother "Points" (by decide)),
    Record.optional_of_not_mem (hother "Metadata" (by decide)),
    Record.optional_of_required hleft rfl, Record.optional_of_required htop rfl,
    Record.optional_of_required hright rfl, Record.optional_of_required hbottom rfl]
  rfl

end Detection

/-! ## Frames -/

section Lists

variable {α β γ : Type} {read : α → Option β} {read' : α → Option γ} {xs : List α}

/-- What one reader reads of every item, another one reads of the list. -/
theorem mapM_of_mapM {f : β → γ} {ys : List β} (h : xs.mapM read = some ys)
    (hread : ∀ x ∈ xs, ∀ y, read x = some y → read' x = some (f y)) :
    xs.mapM read' = some (ys.map f) := by
  induction xs generalizing ys with
  | nil =>
    cases h
    rfl
  | cons x rest ih =>
    rw [List.mapM_cons] at h ⊢
    simp only [Option.pure_def, Option.bind_eq_bind, Option.bind_eq_some_iff,
      Option.some.injEq] at h
    obtain ⟨y, hy, ys, hys, rfl⟩ := h
    rw [hread x (List.mem_cons_self ..) y hy,
      ih hys fun z hz => hread z (List.mem_cons_of_mem _ hz)]
    rfl

/-- One item that is not read spoils the list. -/
theorem mapM_eq_none {x : α} (hx : x ∈ xs) (h : read x = none) : xs.mapM read = none := by
  cases hall : xs.mapM read with
  | none => rfl
  | some ys =>
    have hmem : none ∈ xs.map read := h ▸ List.mem_map_of_mem hx
    rw [map_of_mapM_eq_some hall] at hmem
    simp at hmem

end Lists

namespace Encoding

/-- The detections of a frame are read as stored shapes. -/
theorem listOf_read?_asWire {v : Json} {frame : Option (List Detection)}
    (hv : v.usesOnly Detection.fieldNames = true) (hnull : v.isNull = false)
    (h : Json.nullable (Json.listOf Detection.read?) v = some frame) :
    Json.listOf WireShape.read? v = some ((frame.getD []).map Detection.asWire) := by
  cases v with
  | arr items =>
    have hitems := Json.mapM_items_of_nullable h
    exact mapM_of_mapM hitems fun w hw d hd =>
      Detection.read?_asWire (Json.usesOnly_of_mem_items hv hw) hd
  | null => cases hnull
  | _ => simp [Json.nullable, Json.listOf, Json.arr?] at h

/-- In either encoding, a frame that is `null` is a reason to refuse all of them. -/
theorem frames?_of_null (e : Encoding) {items : List Json} (h : .null ∈ items) :
    e.frames? (.arr items) = none := by
  have hnone : Json.listOf (Json.listOf WireShape.read?) (.arr items) = none :=
    mapM_eq_none h rfl
  unfold frames?
  rw [hnone]
  rfl

/-- Data in which all objects have only the fields of a detection, and of which detections are
read, is read as the boxes of just these detections if no frame is `null`. Otherwise no shapes are
read of it. -/
theorem frames?_of_detectionFrames? {data : Json} {detections : List (List Detection)}
    (hdata : data.usesOnly Detection.fieldNames = true)
    (h : detectionFrames? data = some detections) :
    Encoding.detection.frames? data =
      if data.items.any Json.isNull then none
      else some (detections.map fun frame => frame.map Detection.asShape) := by
  unfold detectionFrames? at h
  obtain ⟨frames, hframes, h⟩ := Option.bind_eq_some_iff.1 h
  cases h
  obtain ⟨items, rfl⟩ : ∃ items, data = .arr items := by
    cases data with
    | arr items => exact ⟨items, rfl⟩
    | _ => cases hframes
  split
  case isTrue hnull =>
    obtain ⟨v, hv, hn⟩ := List.any_eq_true.1 hnull
    cases v with
    | null => exact frames?_of_null _ hv
    | _ => cases hn
  case isFalse hnull =>
    have hitems : items.mapM (Json.nullable (Json.listOf Detection.read?)) = some frames := hframes
    have hwire : Json.listOf (Json.listOf WireShape.read?) (.arr items) =
        some (frames.map fun frame => (frame.getD []).map Detection.asWire) := by
      refine mapM_of_mapM hitems fun v hv frame hframe =>
        listOf_read?_asWire (Json.usesOnly_of_mem_items hdata hv) ?_ hframe
      exact Bool.eq_false_iff.2 fun hn => hnull (List.any_eq_true.2 ⟨v, hv, hn⟩)
    unfold frames?
    rw [hwire]
    show some (List.map _ _) = _
    rw [List.map_map, List.map_map]
    refine congrArg some (List.map_congr_left fun frame _ => ?_)
    show ((frame.getD []).map Detection.asWire).filterMap detection.decode? = _
    rw [List.filterMap_map]
    exact filterMap_eq_map fun d _ => d.decode?_asWire

/-- Two frames of detections, the fields of one in no order and those of the other with a track of
zero and a category that is `null`. -/
def sparseData : Json :=
  .arr [.arr [.obj [("TrackID", .int 3), ("Left", .int 1), ("Bottom", .int 12), ("Top", .int 2),
      ("Category", .str "car"), ("Right", .int 11)]],
    .arr [.obj [("Bottom", .int 5), ("Category", .null), ("Left", .int 0), ("Right", .int 5),
      ("Top", .int 0), ("TrackID", .int 0)]], .arr []]

theorem frames?_of_detectionFrames?_sparse :
    sparseData.usesOnly Detection.fieldNames = true ∧
    detectionFrames? sparseData =
      some [[⟨1, 2, 11, 12, some 3, some "car", []⟩], [⟨0, 0, 5, 5, none, none, []⟩], []] ∧
    Encoding.detection.frames? sparseData =
      some [[⟨.box, [⟨1, 2⟩, ⟨11, 12⟩], "car", some 3, []⟩],
        [⟨.box, [⟨0, 0⟩, ⟨5, 5⟩], "", none, []⟩], []] := by
  have hread : detectionFrames? sparseData =
      some [[⟨1, 2, 11, 12, some 3, some "car", []⟩], [⟨0, 0, 5, 5, none, none, []⟩], []] := rfl
  exact ⟨by decide +kernel, hread, frames?_of_detectionFrames? (by decide +kernel) hread⟩

/-- A frame without detections that is `null`: the track tool reads the detection of the other
frame, and the shape tool nothing. -/
theorem frames?_null_frame :
    let data : Json := .arr [.arr [.obj [("Bottom", .int 12), ("Left", .int 1), ("Right", .int 11),
      ("Top", .int 2), ("TrackID", .int 3)]], .null]
    data.usesOnly Detection.fieldNames = true ∧
      detectionFrames? data = some [[⟨1, 2, 11, 12, some 3, none, []⟩], []] ∧
      Encoding.detection.frames? data = none := by
  exact ⟨by decide +kernel, rfl, rfl⟩

end Encoding

end Labeling
