import Labeling.Proofs.Json.Fields
import Labeling.Proofs.Shape.Stored
import Labeling.Detection

/-!
# Detections as they are stored

A detection is read from the fields of an object, some of which the program interprets; the others
it keeps as they are. When it is stored again, all of them are put together. This module compares
the object that was read with the one that is written, by what stands under each name:

* `Detection.MadeOf` says what a detection takes from an object, and `Detection.madeOf_of_read?`
  that reading makes it of that object;
* `Detection.onTrack` is the object with another track, and `Detection.MadeOf.toJson_eq` says that
  a detection put on that track is stored as it.

A track that is zero or `null` stands for none, and is left out when it is stored, as is a category
that is `null`. All other fields are written as they were read.
-/

namespace Labeling

/-! ## Fields of a record -/

namespace Record

/-- A field that was looked for in an object is what stands there under its name. -/
theorem get?_of_field? {fields : List (String × Json)} {position : Nat} {name : String}
    {value : Option Json} (h : (Record.named fields).field? position [name] = some value) :
    (Fields.ofList fields).get? name = value := by
  -- Only the fields of that name matter, and there is one of them at most.
  have hnamed := Fields.get?_ofList_filter (fun n => [name].contains n) fields name
  rw [if_pos (by simp)] at hnamed
  rw [← hnamed]
  unfold field? at h
  dsimp only at h
  split at h
  · rename_i hnone
    rw [hnone]
    exact Option.some.inj h
  · rename_i n w hone
    have hmem : (n, w) ∈ fields.filter fun f => [name].contains f.1 := by
      rw [hone]
      exact List.mem_singleton.2 rfl
    have hn : n = name := by simpa using (List.mem_filter.1 hmem).2
    rw [hone, Fields.get?_ofList_cons, if_pos hn]
    exact Option.some.inj h
  · cases h

/-- What is read from a field that must be given was read from the value that stands there. -/
theorem get?_of_required {α : Type} {fields : List (String × Json)} {position : Nat}
    {name : String} {read : Json → Option α} {a : α}
    (h : (Record.named fields).required position name read = some a) :
    ∃ v, (Fields.ofList fields).get? name = some v ∧ read v = some a := by
  unfold required at h
  obtain ⟨value, hvalue, h⟩ := Option.bind_eq_some_iff.1 h
  cases value with
  | none => cases h
  | some v => exact ⟨v, get?_of_field? hvalue, h⟩

/-- What is read from a field that need not be given was read from the value that stands there,
or is the default where none stands. -/
theorem get?_of_given {α : Type} {fields : List (String × Json)} {position : Nat} {name : String}
    {read : Json → Option α} {default a : α}
    (h : (Record.named fields).given position [name] read default = some a) :
    (Fields.ofList fields).get? name = none ∧ a = default ∨
      ∃ v, (Fields.ofList fields).get? name = some v ∧ read v = some a := by
  unfold given at h
  obtain ⟨value, hvalue, h⟩ := Option.bind_eq_some_iff.1 h
  cases value with
  | none => exact Or.inl ⟨get?_of_field? hvalue, (Option.some.inj h).symm⟩
  | some v => exact Or.inr ⟨v, get?_of_field? hvalue, h⟩

end Record

/-! ## Parts of a value -/

namespace Json

/-- The items of an array; any other value has none. -/
def items (v : Json) : List Json := v.arr?.getD []

/-- The fields of an object, in the order of their names; any other value has none. -/
def fields (v : Json) : Fields Json := Fields.ofList (v.obj?.getD [])

/-- The value is `null`. -/
def isNull : Json → Bool
  | .null => true
  | _ => false

theorem sorted_fields (v : Json) : Fields.Sorted v.fields := Fields.sorted_ofList _

@[simp] theorem fields_object (pairs : List (String × Json)) :
    (object pairs).fields = Fields.ofList pairs :=
  Fields.ofList_of_sorted (Fields.sorted_ofList pairs)

/-- Two objects with the same values by name are the same. -/
theorem object_congr {pairs pairs' : List (String × Json)}
    (h : ∀ name, (object pairs).fields.get? name = (object pairs').fields.get? name) :
    object pairs = object pairs' := by
  simp only [fields_object] at h
  exact congrArg obj (Fields.ext_of_sorted (Fields.sorted_ofList _) (Fields.sorted_ofList _) h)

theorem eq_int_of_int? {v : Json} {n : Int} (h : v.int? = some n) : v = .int n := by
  cases v <;> simp_all [int?]

/-- A text that may be `null` is read as what it is. -/
theorem filter_not_isNull {v : Json} {text : Option String} (h : nullable str? v = some text) :
    (some v).filter (!·.isNull) = text.map str := by
  cases v <;> simp_all [nullable, str?, isNull, Option.filter, eq_comm]

/-- A list of readable items, or `null`, has just these items. -/
theorem mapM_items_of_nullable {β : Type} {read : Json → Option β} {v : Json}
    {items : Option (List β)} (h : nullable (listOf read) v = some items) :
    v.items.mapM read = some (items.getD []) := by
  cases v with
  | null =>
    cases h
    rfl
  | arr given =>
    unfold nullable listOf at h
    simp only [arr?, Option.bind_eq_bind, Option.bind_some, Option.map_eq_some_iff] at h
    obtain ⟨values, hvalues, rfl⟩ := h
    exact hvalues
  | _ => simp [nullable, listOf, arr?] at h

end Json

/-- What stands under a name in an object with one optional field. -/
theorem WireShape.get?_field {β : Type} (name : String) (write : β → Json) (value : Option β)
    (n : String) :
    Fields.get? (Fields.ofList (field name write value)) n =
      if name = n then value.map write else none := by
  cases value with
  | none => simp [field, Fields.ofList, Fields.get?]
  | some b => simp [field, Fields.ofList, Fields.get?_insert, Fields.get?]

/-! ## Detections and objects -/

namespace Detection

/-- The track with which a stored detection comes; zero stands for none. -/
def givenTrack (v : Json) : Option Int := ((v.fields.get? "TrackID").bind Json.int?).filter (· ≠ 0)

/-- A field of a stored detection stays as it is, unless it is the track or a category that is
`null`. -/
def isKept (f : String × Json) : Bool := f.1 ≠ "TrackID" && !(f.1 = "Category" && f.2.isNull)

/-- A stored detection on another track, or on none. -/
def onTrack (track : Option Int) (v : Json) : Json :=
  .object (v.fields.filter isKept ++ WireShape.field "TrackID" .int track)

/-- What stands under a name in a stored detection on another track. -/
theorem get?_onTrack (track : Option Int) (v : Json) (name : String) :
    (onTrack track v).fields.get? name =
      if name = "TrackID" then track.map .int
      else (v.fields.get? name).filter fun w => isKept (name, w) := by
  have hkept : Fields.Sorted (v.fields.filter isKept) := v.sorted_fields.filter isKept
  rw [onTrack, Json.fields_object, Fields.get?_ofList_append, WireShape.get?_field,
    Fields.ofList_of_sorted hkept, Fields.get?_filter v.sorted_fields]
  by_cases hname : name = "TrackID"
  · subst hname
    cases v.fields.get? "TrackID" <;> simp [isKept, Option.filter_some]
  · simp [hname, Ne.symm hname]

/-- A detection is made of what stands in an object. -/
structure MadeOf (d : Detection) (v : Json) : Prop where
  left : v.fields.get? "Left" = some (.int d.left)
  top : v.fields.get? "Top" = some (.int d.top)
  right : v.fields.get? "Right" = some (.int d.right)
  bottom : v.fields.get? "Bottom" = some (.int d.bottom)
  track : d.track = givenTrack v
  category : (v.fields.get? "Category").filter (!·.isNull) = d.category.map .str
  /-- The fields that are not interpreted are those of the object. -/
  extra : ∀ name, d.extra.get? name =
    if fieldNames.contains name then none else v.fields.get? name
  sorted : Fields.Sorted d.extra

theorem eq_of_trackOf? {v : Json} {track : Option Int} (h : trackOf? v = some track) :
    track = v.int?.filter (· ≠ 0) := by
  cases v with
  | null => simpa [trackOf?, Json.nullable, Json.int?, eq_comm] using h
  | int n =>
    unfold trackOf? Json.nullable at h
    cases hn : (Json.int n).int? <;> simp_all
  | _ => simp [trackOf?, Json.nullable, Json.int?] at h

/-- What is read is made of what was read. -/
theorem madeOf_of_read? {v : Json} {d : Detection} (h : read? v = some d) : d.MadeOf v := by
  unfold read? at h
  simp only [Option.pure_def, Option.bind_eq_bind, Option.bind_eq_some_iff, Option.some.injEq] at h
  obtain ⟨fields, hobj, left, hleft, top, htop, right, hright, bottom, hbottom, track, htrack,
    category, hcategory, rfl⟩ := h
  have hfields : v.fields = Fields.ofList fields := by rw [Json.fields, hobj, Option.getD_some]
  have hside : ∀ {position name} {n : Int},
      (Record.named fields).required position name Json.int? = some n →
        v.fields.get? name = some (.int n) := by
    intro position name n hn
    obtain ⟨w, hw, hread⟩ := Record.get?_of_required hn
    rw [hfields, hw, Json.eq_int_of_int? hread]
  refine ⟨hside hleft, hside htop, hside hright, hside hbottom, ?track, ?category,
    fun name => ?extra, Fields.sorted_ofList _⟩
  case track =>
    unfold givenTrack
    rw [hfields]
    rcases Record.get?_of_given htrack with ⟨hnone, rfl⟩ | ⟨w, hw, hread⟩
    · rw [hnone]
      rfl
    · rw [hw, Option.bind_some, eq_of_trackOf? hread]
  case category =>
    rw [hfields]
    rcases Record.get?_of_given hcategory with ⟨hnone, rfl⟩ | ⟨w, hw, hread⟩
    · rw [hnone]
      rfl
    · rw [hw]
      exact Json.filter_not_isNull hread
  case extra =>
    rw [hfields]
    show (Fields.ofList (fields.filter fun f => !fieldNames.contains f.1)).get? name = _
    rw [Fields.get?_ofList_filter fun n => !fieldNames.contains n]
    cases fieldNames.contains name <;> rfl

/-- A detection is stored again as what it was made of, but for its track. -/
theorem MadeOf.toJson_eq {d : Detection} {v : Json} (h : d.MadeOf v) (track : Option Int) :
    ({ d with track } : Detection).toJson = onTrack track v := by
  refine Json.object_congr fun name => ?_
  rw [← onTrack, get?_onTrack, Json.fields_object]
  have hnil : Fields.get? (Fields.ofList ([] : List (String × Json))) name = none := rfl
  simp only [Fields.get?_ofList_append, Fields.get?_ofList_cons, WireShape.get?_field, hnil,
    Fields.ofList_of_sorted h.sorted, h.extra]
  by_cases hname : name ∈ fieldNames
  · simp only [fieldNames, List.mem_cons, List.not_mem_nil, or_false] at hname
    rcases hname with rfl | rfl | rfl | rfl | rfl | rfl
    · simp [fieldNames, isKept, h.left, Option.filter_some]
    · simp [fieldNames, isKept, h.top, Option.filter_some]
    · simp [fieldNames, isKept, h.right, Option.filter_some]
    · simp [fieldNames, isKept, h.bottom, Option.filter_some]
    · simp [fieldNames]
    · simp [fieldNames, isKept, ← h.category]
  · simp only [fieldNames, List.mem_cons, List.not_mem_nil, or_false, not_or] at hname
    cases v.fields.get? name <;> simp [fieldNames, isKept, hname, Option.filter_some, eq_comm]

/-- A detection that is read and put on another track is stored as the object on that track. -/
theorem toJson_of_read? {v : Json} {d : Detection} (h : read? v = some d)
    (track : Option Int → Option Int) :
    ({ d with track := track d.track } : Detection).toJson = onTrack (track (givenTrack v)) v := by
  have hmade := madeOf_of_read? h
  rw [hmade.toJson_eq, hmade.track]

end Detection

end Labeling
