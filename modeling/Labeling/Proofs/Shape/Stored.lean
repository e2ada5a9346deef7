import Labeling.Proofs.Json.Fields
import Labeling.Shape.Wire

/-!
# Reading stored shapes back

Shapes whose numbers fit 64 bits (`Shape.InRange`) are read back from their stored form, in
either encoding (`Encoding.frames?_framesToJson`). Not a single one is dropped as long as all
can be drawn. What comes back is `Encoding.recovered`: a track of zero stands for no track, and
as a detection any shape becomes a box. The other way round, whatever is read from stored data
fits 64 bits and can be drawn (`Encoding.frames?_sound`).
-/

namespace Labeling

/-! ## Lists of readable parts -/

section Lists

variable {α β γ : Type}

theorem mapM_map_eq_some {read : β → Option γ} {write : α → β} {f : α → γ} {xs : List α}
    (h : ∀ x ∈ xs, read (write x) = some (f x)) : (xs.map write).mapM read = some (xs.map f) := by
  induction xs with
  | nil => rfl
  | cons x rest ih =>
    rw [List.map_cons, List.mapM_cons, h x (List.mem_cons_self ..),
      ih fun y hy => h y (List.mem_cons_of_mem _ hy)]
    rfl

theorem filterMap_eq_map {read : α → Option β} {f : α → β} {xs : List α}
    (h : ∀ x ∈ xs, read x = some (f x)) : xs.filterMap read = xs.map f := by
  induction xs with
  | nil => rfl
  | cons x rest ih =>
    rw [List.filterMap_cons_some (h x (List.mem_cons_self ..)),
      ih fun y hy => h y (List.mem_cons_of_mem _ hy), List.map_cons]

theorem map_of_mapM_eq_some {read : α → Option β} {xs : List α} {ys : List β}
    (h : xs.mapM read = some ys) : xs.map read = ys.map some := by
  induction xs generalizing ys with
  | nil =>
    cases h
    rfl
  | cons x rest ih =>
    rw [List.mapM_cons] at h
    simp only [Option.pure_def, Option.bind_eq_bind, Option.bind_eq_some_iff,
      Option.some.injEq] at h
    obtain ⟨y, hy, ys, hys, rfl⟩ := h
    rw [List.map_cons, List.map_cons, hy, ih hys]

/-- Each item that is read was read from one of the list. -/
theorem mem_of_mapM_eq_some {read : α → Option β} {xs : List α} {ys : List β}
    (h : xs.mapM read = some ys) {y : β} (hy : y ∈ ys) : ∃ x ∈ xs, read x = some y := by
  have hmem : some y ∈ xs.map read := by
    rw [map_of_mapM_eq_some h]
    exact List.mem_map_of_mem hy
  exact List.mem_map.1 hmem

/-- Each item of a list that is readable gives one item. -/
theorem length_of_mapM_eq_some {read : α → Option β} {xs : List α} {ys : List β}
    (h : xs.mapM read = some ys) : ys.length = xs.length := by
  have hlen := congrArg List.length (map_of_mapM_eq_some h)
  rw [List.length_map, List.length_map] at hlen
  exact hlen.symm

/-- A list that is read item by item, with a function of the place and of what was read, is a
function of the place and of the item. -/
theorem mapIdx_of_mapM {read : α → Option β} {f : Nat → α → γ} {g : Nat → β → γ}
    (hfg : ∀ k x y, read x = some y → g k y = f k x) {xs : List α} {ys : List β}
    (h : xs.mapM read = some ys) : ys.mapIdx g = xs.mapIdx f := by
  refine List.ext_getElem? fun k => ?_
  have hk := congrArg (fun zs => zs[k]?) (map_of_mapM_eq_some h)
  simp only [List.getElem?_map] at hk
  rw [List.getElem?_mapIdx, List.getElem?_mapIdx]
  cases hx : xs[k]? with
  | none =>
    cases hy : ys[k]? with
    | none => rfl
    | some y => simp [hx, hy] at hk
  | some x =>
    cases hy : ys[k]? with
    | none => simp [hx, hy] at hk
    | some y =>
      have hread : read x = some y := by simpa [hx, hy] using hk
      simp [hfg k x y hread]

end Lists

namespace Json

theorem sortedItems_eq (items : List Json) : sortedItems items = items.map sorted := by
  induction items with
  | nil => rfl
  | cons v rest ih => rw [sortedItems, ih, List.map_cons]

theorem sortedFields_eq (fields : List (String × Json)) :
    sortedFields fields = fields.map fun f => (f.1, sorted f.2) := by
  induction fields with
  | nil => rfl
  | cons f rest ih => rw [sortedFields, ih, List.map_cons]

theorem int?_int {n : Int} (h : isInt64 n = true) : int? (.int n) = some n := if_pos h

theorem isInt64_of_int? {v : Json} {n : Int} (h : int? v = some n) : isInt64 n = true := by
  cases v with
  | int m =>
    unfold int? at h
    dsimp only at h
    split at h
    · rename_i hm
      cases h
      exact hm
    · cases h
  | _ => cases h

/-- A value other than `null` is read as it is. -/
theorem nullable_eq_some {α : Type} {read : Json → Option α} {v : Json} {a : α} (hv : v ≠ .null)
    (h : read v = some a) : nullable read v = some (some a) := by
  unfold nullable
  split
  · exact absurd rfl hv
  · rw [h]
    rfl

theorem read_of_nullable {α : Type} {read : Json → Option α} {v : Json} {a : α}
    (h : nullable read v = some (some a)) : read v = some a := by
  unfold nullable at h
  split at h
  · cases h
  · obtain ⟨b, hb, he⟩ := Option.map_eq_some_iff.1 h
    cases he
    exact hb

theorem listOf_arr_map {α β : Type} {read : Json → Option β} {write : α → Json} {f : α → β}
    {xs : List α} (h : ∀ x ∈ xs, read (write x) = some (f x)) :
    listOf read (.arr (xs.map write)) = some (xs.map f) :=
  mapM_map_eq_some h

theorem mem_of_listOf {α : Type} {read : Json → Option α} {v : Json} {xs : List α}
    (h : listOf read v = some xs) {x : α} (hx : x ∈ xs) : ∃ u, read u = some x := by
  unfold listOf at h
  obtain ⟨items, -, h⟩ := Option.bind_eq_some_iff.1 h
  obtain ⟨u, -, hu⟩ := mem_of_mapM_eq_some h hx
  exact ⟨u, hu⟩

end Json

/-! ## Fields of records -/

namespace Record

variable {β γ : Type} {r : Record Json} {position : Nat} {name : String}

/-- An optional field that was written is read, and one that was left out is not there. -/
theorem optional_of_field? {value : Option β} {write : β → Json} {read : Json → Option γ}
    {f : β → γ} (hr : r.field? position [name] = some (value.map write))
    (h : ∀ b, value = some b → Json.nullable read (write b) = some (some (f b))) :
    r.optional position name read = some (value.map f) := by
  unfold optional given
  rw [hr]
  cases value with
  | none => rfl
  | some b => exact h b rfl

theorem given_of_field? {names : List String} {value : Option β} {write : β → Json}
    {read : Json → Option (Option γ)} {f : β → Option γ}
    (hr : r.field? position names = some (value.map write))
    (h : ∀ b, value = some b → read (write b) = some (f b)) :
    r.given position names read none = some (value.bind f) := by
  unfold given
  rw [hr]
  cases value with
  | none => rfl
  | some b => exact h b rfl

/-- What is read from a field that need not be given is the default, or was read from some value. -/
theorem read_of_given {names : List String} {read : Json → Option (Option γ)} {found : Option γ}
    (h : r.given position names read none = some found) :
    found = none ∨ ∃ v, read v = some found := by
  unfold given at h
  obtain ⟨value, -, h⟩ := Option.bind_eq_some_iff.1 h
  cases value with
  | none => exact .inl (Option.some.inj h).symm
  | some v => exact .inr ⟨v, h⟩

/-- What is read from an optional field was read from some value. -/
theorem read_of_optional {read : Json → Option γ} {c : γ}
    (h : r.optional position name read = some (some c)) : ∃ v, read v = some c := by
  unfold optional given at h
  obtain ⟨found, -, h⟩ := Option.bind_eq_some_iff.1 h
  cases found with
  | none => cases h
  | some v => exact ⟨v, Json.read_of_nullable h⟩

end Record

/-! ## Numbers that fit -/

/-- Both coordinates fit 64 bits. -/
def Pixel.InRange (p : Pixel) : Prop := isInt64 p.x = true ∧ isInt64 p.y = true

/-- The pixels and the track of a shape fit 64 bits. -/
structure Shape.InRange (s : Shape) : Prop where
  points : ∀ p ∈ s.points, p.InRange
  track : ∀ n, s.track = some n → isInt64 n = true

/-- All numbers of a stored shape fit 64 bits. -/
structure WireShape.InRange (w : WireShape) : Prop where
  points : ∀ ps, w.points = some ps → ∀ p ∈ ps, p.InRange
  left : ∀ n, w.left = some n → isInt64 n = true
  top : ∀ n, w.top = some n → isInt64 n = true
  right : ∀ n, w.right = some n → isInt64 n = true
  bottom : ∀ n, w.bottom = some n → isInt64 n = true
  track : ∀ n, w.track = some n → isInt64 n = true

/-! ## The parts of a stored shape -/

theorem Pixel.read?_toJson {p : Pixel} (h : p.InRange) :
    Pixel.read? p.toJson.sorted = some p := by
  simp [Pixel.toJson, Json.sorted, Json.sortedItems, Pixel.read?, Json.pairOf, Json.int?_int h.1,
    Json.int?_int h.2]

theorem Pixel.inRange_of_read? {v : Json} {p : Pixel} (h : Pixel.read? v = some p) :
    p.InRange := by
  unfold Pixel.read? Json.pairOf at h
  split at h
  · simp only [Option.pure_def, Option.bind_eq_bind, Option.bind_eq_some_iff,
      Option.some.injEq] at h
    obtain ⟨_, ⟨x, hx, y, hy, rfl⟩, rfl⟩ := h
    exact ⟨Json.isInt64_of_int? hx, Json.isInt64_of_int? hy⟩
  · cases h

theorem ShapeKind.read?_name (k : ShapeKind) : ShapeKind.read? (.str k.name) = some k := by
  cases k <;> rfl

/-- A track of zero stands for no track. -/
theorem trackOf?_int {n : Int} (h : isInt64 n = true) :
    trackOf? (.int n) = some ((some n).filter (· ≠ 0)) := by
  unfold trackOf?
  rw [Json.nullable_eq_some (fun hn => by cases hn) (Json.int?_int h)]
  rfl

theorem isInt64_of_trackOf? {v : Json} {n : Int} (h : trackOf? v = some (some n)) :
    isInt64 n = true := by
  unfold trackOf? at h
  obtain ⟨track, htrack, h⟩ := Option.bind_eq_some_iff.1 h
  have hn : track = some n := (Option.filter_eq_some_iff.1 (Option.some.inj h)).1
  subst hn
  exact Json.isInt64_of_int? (Json.read_of_nullable htrack)

/-- Texts under some names are read back in the order of the names. -/
theorem attributes?_obj (fields : Fields String) :
    attributes? (Json.obj (fields.map fun f => (f.1, .str f.2))).sorted =
      some (Fields.ofList fields) := by
  have hsorted : (Json.obj (fields.map fun f => (f.1, .str f.2))).sorted =
      .obj ((Fields.ofList fields).map fun f => (f.1, .str f.2)) := by
    rw [Json.sorted, Json.sortedFields_eq, List.map_map]
    show Json.obj (Fields.ofList (fields.map fun f => (f.1, Json.str f.2))) = _
    rw [Fields.ofList_map]
  have hread : ((Fields.ofList fields).map fun f => (f.1, Json.str f.2)).mapM
      (fun f : String × Json => f.2.str?.bind fun text => pure (f.1, text)) =
        some ((Fields.ofList fields).map id) := mapM_map_eq_some fun f _ => rfl
  unfold attributes?
  rw [hsorted]
  simp only [Json.obj?, Option.bind_eq_bind, Option.bind_some]
  rw [hread, List.map_id]
  exact congrArg some (Fields.ofList_ofList fields)

/-! ## Stored shapes -/

namespace WireShape

/-- The fields of a record, of which some are left out. -/
def entries (w : WireShape) : List (String × Option Json) :=
  [("Type", w.kind.map fun k => .str k.name),
    ("Points", w.points.map fun ps => (Json.arr (ps.map Pixel.toJson)).sorted),
    ("Left", w.left.map .int), ("Top", w.top.map .int), ("Right", w.right.map .int),
    ("Bottom", w.bottom.map .int), ("Category", w.category.map .str),
    ("TrackID", w.track.map .int),
    ("Metadata", w.attributes.map fun fs => (Json.obj (fs.map fun f => (f.1, .str f.2))).sorted)]

theorem sortedFields_field {β : Type} (name : String) (write : β → Json) (value : Option β) :
    (field name write value).map (fun f => (f.1, f.2.sorted)) =
      ((value.map fun b => (write b).sorted).map fun v => (name, v)).toList := by
  cases value <;> rfl

theorem sorted_toJson (w : WireShape) :
    w.toJson.sorted = .obj (Fields.ofList (Record.written w.entries)) := by
  have hfields : Json.sortedFields (field "Type" (fun k => .str k.name) w.kind ++
      field "Points" (fun ps => .arr (ps.map Pixel.toJson)) w.points ++
      field "Left" .int w.left ++ field "Top" .int w.top ++
      field "Right" .int w.right ++ field "Bottom" .int w.bottom ++
      field "Category" .str w.category ++ field "TrackID" .int w.track ++
      field "Metadata" (fun fs => .obj (fs.map fun f => (f.1, .str f.2))) w.attributes) =
        Record.written w.entries := by
    rw [Json.sortedFields_eq]
    simp only [List.map_append, sortedFields_field, entries, Record.written, List.flatMap_cons,
      List.flatMap_nil, List.append_assoc, List.append_nil]
    simp only [Json.sorted]
  exact congrArg (fun fields => Json.obj (Fields.ofList fields)) hfields

/-- What a stored shape holds once it is read back. -/
def readBack (w : WireShape) : WireShape :=
  { w with track := w.track.bind fun n => (some n).filter (· ≠ 0)
           attributes := w.attributes.map Fields.ofList }

theorem nodup_entries (w : WireShape) : (w.entries.map Prod.fst).Nodup := by
  show ["Type", "Points", "Left", "Top", "Right", "Bottom", "Category", "TrackID",
    "Metadata"].Nodup
  decide

/-- A number of a stored shape is read back. -/
theorem optional_int {r : Record Json} {position : Nat} {name : String} {value : Option Int}
    (hr : r.field? position [name] = some (value.map .int))
    (h : ∀ n, value = some n → isInt64 n = true) :
    r.optional position name Json.int? = some value := by
  have hread : r.optional position name Json.int? = some (value.map id) :=
    Record.optional_of_field? hr fun n hn =>
      Json.nullable_eq_some (fun he => by cases he) (Json.int?_int (h n hn))
  rwa [Option.map_id] at hread

/-- A stored shape is read back from its record. -/
theorem read?_toJson {w : WireShape} (h : w.InRange) : read? w.toJson.sorted = some w.readBack := by
  rw [sorted_toJson]
  generalize hr : Record.named (Fields.ofList (Record.written w.entries)) = r
  have hfind : ∀ position name value, w.entries[position]? = some (name, value) →
      r.field? position [name] = some value := by
    intro position name value hm
    rw [← hr]
    exact Record.field?_written w.nodup_entries (List.mem_of_getElem? hm) position
  have hkind : r.optional 0 "Type" ShapeKind.read? = some (w.kind.map id) :=
    Record.optional_of_field? (hfind 0 "Type" _ rfl) fun k _ =>
      Json.nullable_eq_some (fun he => by cases he) (ShapeKind.read?_name k)
  have hpoints : r.optional 1 "Points" (Json.listOf Pixel.read?) = some (w.points.map id) := by
    refine Record.optional_of_field? (hfind 1 "Points" _ rfl) fun ps hps => ?_
    refine Json.nullable_eq_some (fun he => by cases he) ?_
    rw [Json.sorted, Json.sortedItems_eq, List.map_map]
    refine (Json.listOf_arr_map (f := id) fun p hp => ?_).trans (by rw [List.map_id]; rfl)
    exact Pixel.read?_toJson (h.points ps hps p hp)
  have hleft := optional_int (hfind 2 "Left" _ rfl) h.left
  have htop := optional_int (hfind 3 "Top" _ rfl) h.top
  have hright := optional_int (hfind 4 "Right" _ rfl) h.right
  have hbottom := optional_int (hfind 5 "Bottom" _ rfl) h.bottom
  have hcategory : r.optional 6 "Category" Json.str? = some (w.category.map id) :=
    Record.optional_of_field? (hfind 6 "Category" _ rfl) fun text _ =>
      Json.nullable_eq_some (fun he => by cases he) rfl
  have htrack : r.given 7 ["TrackID"] trackOf? none = some w.readBack.track :=
    Record.given_of_field? (hfind 7 "TrackID" _ rfl) fun n hn =>
      trackOf?_int (h.track n hn)
  have hattributes : r.optional 8 "Metadata" attributes? = some (w.attributes.map Fields.ofList) :=
    Record.optional_of_field? (hfind 8 "Metadata" _ rfl) fun fields _ =>
      Json.nullable_eq_some (fun he => by cases he) (attributes?_obj fields)
  have hrecord : Source.recordOf (Json.obj (Fields.ofList (Record.written w.entries))) 9 =
      some r := by
    rw [← hr]
    rfl
  unfold read?
  rw [hrecord]
  simp only [Option.bind_eq_bind, Option.bind_some, hkind, hpoints, hleft, htop, hright, hbottom,
    hcategory, htrack, hattributes, Option.map_id, id]
  rfl

/-- The parts of a stored shape are read from the fields of a record. -/
structure ReadFrom (w : WireShape) (r : Record Json) : Prop where
  points : r.optional 1 "Points" (Json.listOf Pixel.read?) = some w.points
  left : r.optional 2 "Left" Json.int? = some w.left
  top : r.optional 3 "Top" Json.int? = some w.top
  right : r.optional 4 "Right" Json.int? = some w.right
  bottom : r.optional 5 "Bottom" Json.int? = some w.bottom
  track : r.given 7 ["TrackID"] trackOf? none = some w.track
  attributes : r.optional 8 "Metadata" attributes? = some w.attributes

theorem exists_readFrom {v : Json} {w : WireShape} (h : read? v = some w) : ∃ r, w.ReadFrom r := by
  unfold read? at h
  simp only [Option.pure_def, Option.bind_eq_bind, Option.bind_eq_some_iff, Option.some.injEq] at h
  obtain ⟨r, -, kind, -, points, hpoints, left, hleft, top, htop, right, hright, bottom, hbottom,
    category, -, track, htrack, attributes, hattributes, rfl⟩ := h
  exact ⟨r, hpoints, hleft, htop, hright, hbottom, htrack, hattributes⟩

/-- The numbers that are read fit 64 bits. -/
theorem inRange_of_read? {v : Json} {w : WireShape} (h : read? v = some w) : w.InRange := by
  obtain ⟨r, hr⟩ := exists_readFrom h
  have hint : ∀ {position name} {value : Option Int},
      r.optional position name Json.int? = some value →
        ∀ n, value = some n → isInt64 n = true := by
    rintro position name value hvalue n rfl
    obtain ⟨u, hu⟩ := Record.read_of_optional hvalue
    exact Json.isInt64_of_int? hu
  refine ⟨fun ps hps p hp => ?_, hint hr.left, hint hr.top, hint hr.right, hint hr.bottom,
    fun n hn => ?_⟩
  · have hpoints := hr.points
    rw [hps] at hpoints
    obtain ⟨u, hu⟩ := Record.read_of_optional hpoints
    obtain ⟨u', hu'⟩ := Json.mem_of_listOf hu hp
    exact Pixel.inRange_of_read? hu'
  · have htrack := hr.track
    rw [hn] at htrack
    rcases Record.read_of_given htrack with hnone | ⟨u, hu⟩
    · cases hnone
    · exact isInt64_of_trackOf? hu

end WireShape

/-! ## Shapes -/

/-- A conversion to whole pixels stays within 64 bits. -/
theorem Point.pixel_inRange (p : Point Float) : p.pixel.InRange := by
  have hfits : ∀ n : Int64, isInt64 n.toInt = true := by
    intro n
    have hge := n.le_toInt
    have hlt := n.toInt_lt
    rw [isInt64_iff]
    omega
  exact ⟨hfits _, hfits _⟩

namespace Encoding

/-- What is read back from the stored form of a shape. A track of zero stands for no track, and
a detection is a box. -/
def recovered (e : Encoding) (s : Shape) : Shape :=
  let track := s.track.bind fun n => (some n).filter (· ≠ 0)
  let attributes := Fields.ofList s.attributes
  match e with
  | .shape => { s with track, attributes }
  | .detection =>
    { kind := .box, points := [(corners Float s).1, (corners Float s).2], category := s.category
      track, attributes }

theorem corners_inRange {s : Shape} (h : s.InRange) :
    (corners Float s).1.InRange ∧ (corners Float s).2.InRange := by
  unfold corners
  split
  · rename_i p q _ hpoints
    exact ⟨h.points p (by rw [hpoints]; simp), h.points q (by rw [hpoints]; simp)⟩
  · split
    · exact ⟨Point.pixel_inRange _, Point.pixel_inRange _⟩
    · exact ⟨⟨rfl, rfl⟩, ⟨rfl, rfl⟩⟩

theorem encode_inRange (e : Encoding) {s : Shape} (h : s.InRange) : (e.encode s).InRange := by
  cases e with
  | shape =>
    refine ⟨fun ps hps => ?_, fun n hn => ?_, fun n hn => ?_, fun n hn => ?_, fun n hn => ?_,
      h.track⟩
    · cases hps
      exact h.points
    all_goals cases hn
  | detection =>
    obtain ⟨⟨hleft, htop⟩, ⟨hright, hbottom⟩⟩ := corners_inRange h
    refine ⟨fun ps hps => ?_, fun n hn => ?_, fun n hn => ?_, fun n hn => ?_, fun n hn => ?_,
      h.track⟩
    · cases hps
    all_goals cases hn; assumption

theorem getD_category (category : String) :
    (if category.isEmpty then none else some category).getD "" = category := by
  split
  · rename_i h
    exact (String.isEmpty_iff.1 h).symm
  · rfl

theorem getD_attributes (fields : Fields String) :
    ((if fields.isEmpty then none else some fields).map Fields.ofList).getD [] =
      Fields.ofList fields := by
  split
  · rename_i h
    rw [List.isEmpty_iff.1 h]
    rfl
  · rfl

/-- A shape that can be drawn is not dropped. -/
theorem decode?_readBack_encode (e : Encoding) {s : Shape} (h : s.isDrawable = true) :
    e.decode? (e.encode s).readBack = some (e.recovered s) := by
  have hread : ∀ kind points, e.outline? (e.encode s).readBack = some (kind, points) →
      kind.minPoints ≤ points.length →
        e.decode? (e.encode s).readBack = some ⟨kind, points, s.category,
          s.track.bind fun n => (some n).filter (· ≠ 0), Fields.ofList s.attributes⟩ := by
    intro kind points houtline hdrawable
    have hcategory : (e.encode s).readBack.category.getD "" = s.category := by
      cases e <;> exact getD_category s.category
    have hattributes : (e.encode s).readBack.attributes.getD [] = Fields.ofList s.attributes := by
      cases e <;> exact getD_attributes s.attributes
    have htrack : (e.encode s).readBack.track =
        s.track.bind fun n => (some n).filter (· ≠ 0) := by
      cases e <;> rfl
    unfold decode?
    rw [houtline]
    simp only [Option.bind_eq_bind, Option.bind_some, hcategory, hattributes, htrack]
    exact if_pos (decide_eq_true hdrawable)
  cases e with
  | shape => exact hread s.kind s.points rfl (of_decide_eq_true h)
  | detection => exact hread .box _ rfl (Nat.le_refl 2)

/-- Shapes that can be drawn are all read back, frame by frame. -/
theorem frames?_framesToJson (e : Encoding) {frames : List (List Shape)}
    (h : ∀ shapes ∈ frames, ∀ s ∈ shapes, s.isDrawable = true ∧ s.InRange) :
    e.frames? (e.framesToJson frames) = some (frames.map fun shapes => shapes.map e.recovered) := by
  have hwire : Json.listOf (Json.listOf WireShape.read?) (e.framesToJson frames) =
      some (frames.map fun shapes => shapes.map fun s => (e.encode s).readBack) :=
    Json.listOf_arr_map fun shapes hshapes => Json.listOf_arr_map fun s hs =>
      WireShape.read?_toJson (encode_inRange e (h shapes hshapes s hs).2)
  unfold frames?
  rw [hwire]
  refine congrArg some ?_
  rw [List.map_map]
  refine List.map_congr_left fun shapes hshapes => ?_
  show (shapes.map fun s => (e.encode s).readBack).filterMap e.decode? = _
  rw [List.filterMap_map]
  exact filterMap_eq_map fun s hs => decode?_readBack_encode e (h shapes hshapes s hs).1

/-- A shape that is read can be drawn, and is made of the parts of the stored one. -/
theorem decode?_eq_some {e : Encoding} {w : WireShape} {s : Shape} (h : e.decode? w = some s) :
    s.isDrawable = true ∧ ∃ kind points, e.outline? w = some (kind, points) ∧
      s = ⟨kind, points, w.category.getD "", w.track, w.attributes.getD []⟩ := by
  unfold decode? at h
  simp only [Option.bind_eq_bind, Option.bind_eq_some_iff] at h
  obtain ⟨⟨kind, points⟩, houtline, h⟩ := h
  split at h
  · rename_i hdrawable
    cases h
    exact ⟨hdrawable, kind, points, houtline, rfl⟩
  · cases h

/-- What is read can be drawn, and its numbers fit. -/
theorem decode?_sound {e : Encoding} {w : WireShape} {s : Shape} (hw : w.InRange)
    (h : e.decode? w = some s) : s.isDrawable = true ∧ s.InRange := by
  obtain ⟨hdrawable, kind, points, houtline, rfl⟩ := decode?_eq_some h
  refine ⟨hdrawable, fun p hp => ?_, hw.track⟩
  cases e with
  | shape =>
    simp only [outline?, Option.pure_def, Option.bind_eq_bind, Option.bind_eq_some_iff,
      Option.some.injEq] at houtline
    obtain ⟨ps, hps, he⟩ := houtline
    cases he
    exact hw.points _ hps p hp
  | detection =>
    simp only [outline?, Option.pure_def, Option.bind_eq_bind, Option.bind_eq_some_iff,
      Option.some.injEq] at houtline
    obtain ⟨left, hleft, top, htop, right, hright, bottom, hbottom, he⟩ := houtline
    cases he
    rcases List.mem_cons.1 hp with rfl | hp
    · exact ⟨hw.left _ hleft, hw.top _ htop⟩
    · cases List.mem_singleton.1 hp
      exact ⟨hw.right _ hright, hw.bottom _ hbottom⟩

/-- Every shape that is read comes from a stored one. -/
theorem exists_of_mem_frames? {e : Encoding} {data : Json} {frames : List (List Shape)}
    (h : e.frames? data = some frames) {shapes : List Shape} (hshapes : shapes ∈ frames)
    {s : Shape} (hs : s ∈ shapes) :
    ∃ v w, WireShape.read? v = some w ∧ e.decode? w = some s := by
  unfold frames? at h
  obtain ⟨wire, hwire, h⟩ := Option.bind_eq_some_iff.1 h
  cases h
  obtain ⟨stored, hstored, rfl⟩ := List.mem_map.1 hshapes
  obtain ⟨w, hw, hdecode⟩ := List.mem_filterMap.1 hs
  obtain ⟨u, hu⟩ := Json.mem_of_listOf hwire hstored
  obtain ⟨u', hu'⟩ := Json.mem_of_listOf hu hw
  exact ⟨u', w, hu', hdecode⟩

theorem frames?_sound {e : Encoding} {data : Json} {frames : List (List Shape)}
    (h : e.frames? data = some frames) :
    ∀ shapes ∈ frames, ∀ s ∈ shapes, s.isDrawable = true ∧ s.InRange := by
  intro shapes hshapes s hs
  obtain ⟨v, w, hread, hdecode⟩ := exists_of_mem_frames? h hshapes hs
  exact decode?_sound (WireShape.inRange_of_read? hread) hdecode

end Encoding

end Labeling
