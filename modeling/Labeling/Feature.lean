import Labeling.Json.Record

/-!
# Feature collections

A feature collection is a list of map features, each kept as the free-form value it is.
A value reads as a collection if it is a record whose type is `FeatureCollection`; such
a value is never kept as a feature: adding it adds the features in it, to any depth.

* `FeatureCollection.ofJson?` reads a collection;
* `FeatureCollection.add` adds a value;
* `Json.leaves` lists the features that a value adds.
-/

namespace Labeling

/-- A list of map features. -/
structure FeatureCollection where
  kind : String
  features : List Json

namespace FeatureCollection

/-- The type by which a collection is known. -/
def typeName : String := "FeatureCollection"

/-- A collection without features. -/
def empty : FeatureCollection := ⟨typeName, []⟩

/-- Read a record of a type and features. -/
def read? (v : Json) : Option FeatureCollection := do
  let r ← Source.recordOf v 2
  return {
    kind := ← r.required 0 "type" Json.str?
    features := ← r.given 1 ["features"] Json.arr? [] }

/-- Read a collection. -/
def ofJson? (v : Json) : Option FeatureCollection := do
  let c ← read? v
  if c.kind = typeName then some c else none

/-- A collection as a record. -/
def toRecord (c : FeatureCollection) : Json :=
  .obj [("type", .str c.kind), ("features", .arr c.features)]

/-- A collection as a free-form value, as it is stored. -/
def toJson (c : FeatureCollection) : Json :=
  .object [("type", .str c.kind), ("features", .arr c.features)]

/-! ## Features inside features -/

/-- A field of a record is smaller than the value that gives the record. -/
theorem sizeOf_lt_of_field? {r : Record Json} {i : Nat} {name : String} {v w : Json}
    (hr : (Source.record? v : Option (Record Json)) = some r)
    (hw : r.field? i [name] = some (some w)) : sizeOf w < sizeOf v := by
  cases v with
  | arr items =>
    simp only [Source.record?, Option.some.injEq] at hr
    subst hr
    simp only [Record.field?, Option.some.injEq] at hw
    have := List.sizeOf_lt_of_mem (List.mem_of_getElem? hw)
    simp only [Json.arr.sizeOf_spec]
    omega
  | obj fields =>
    simp only [Source.record?, Option.some.injEq] at hr
    subst hr
    simp only [Record.field?] at hw
    split at hw
    · simp at hw
    · rename_i n u heq
      simp only [Option.some.injEq] at hw
      subst hw
      have hmem : (n, u) ∈ fields := by
        have : (n, u) ∈ fields.filter (fun f => [name].contains f.1) := by
          rw [heq]
          exact List.mem_singleton_self _
        exact (List.mem_filter.1 this).1
      have := List.sizeOf_lt_of_mem hmem
      simp only [Json.obj.sizeOf_spec, Prod.mk.sizeOf_spec] at this ⊢
      omega
    · simp at hw
  | null => simp [Source.record?] at hr
  | bool b => simp [Source.record?] at hr
  | int n => simp [Source.record?] at hr
  | float x => simp [Source.record?] at hr
  | str s => simp [Source.record?] at hr

/-- The features of a collection are smaller than the value it is read from. -/
theorem sizeOf_lt_of_mem_features {v w : Json} {c : FeatureCollection} (h : ofJson? v = some c)
    (hw : w ∈ c.features) : sizeOf w < sizeOf v := by
  simp only [ofJson?, Option.bind_eq_bind, Option.bind_eq_some_iff] at h
  obtain ⟨d, hd, hc⟩ := h
  split at hc
  · simp only [Option.some.injEq] at hc
    subst hc
    simp only [read?, Source.recordOf, Option.bind_eq_bind, Option.bind_eq_some_iff,
      Option.pure_def, Option.some.injEq] at hd
    obtain ⟨r, ⟨r', hr', hfits⟩, kind, -, features, hfeatures, rfl⟩ := hd
    split at hfits
    · simp only [Option.some.injEq] at hfits
      subst hfits
      simp only [Record.given, Option.bind_eq_bind, Option.bind_eq_some_iff] at hfeatures
      obtain ⟨field, hfield, hread⟩ := hfeatures
      cases field with
      | none =>
        simp only [Option.some.injEq] at hread
        subst hread
        simp at hw
      | some u =>
        have hu := sizeOf_lt_of_field? hr' hfield
        cases u with
        | arr items =>
          simp only [Json.arr?, Option.some.injEq] at hread
          subst hread
          have : sizeOf w < sizeOf items := List.sizeOf_lt_of_mem hw
          simp only [Json.arr.sizeOf_spec] at hu
          omega
        | _ => simp [Json.arr?] at hread
    · simp at hfits
  · simp at hc

/-- Add a value: a collection adds the features in it, in order, and anything else is a
feature. -/
def add (c : FeatureCollection) (v : Json) : FeatureCollection :=
  match _isCollection : ofJson? v with
  | some nested => nested.features.attach.foldl (fun c w => add c w.1) c
  | none => { c with features := c.features ++ [v] }
termination_by sizeOf v
decreasing_by exact sizeOf_lt_of_mem_features _isCollection w.2

end FeatureCollection

/-- The features that a value adds to a collection. -/
def Json.leaves (v : Json) : List Json :=
  match _isCollection : FeatureCollection.ofJson? v with
  | some nested => nested.features.attach.flatMap fun w => leaves w.1
  | none => [v]
termination_by sizeOf v
decreasing_by exact FeatureCollection.sizeOf_lt_of_mem_features _isCollection w.2

end Labeling
