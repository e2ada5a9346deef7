import Labeling.Feature

/-!
# Features that are added

A value that reads as a collection is never kept as a feature. Its features are added in its
place, and those of them that read as collections are taken apart in turn. What is added in the
end are the leaves of the value (`Json.leaves`), in their order, and nothing else changes
(`FeatureCollection.add_eq`).

* `FeatureCollection.Within` leads from a collection to its features, and
  `FeatureCollection.wellFounded_within` says that this comes to an end, in whatever form the
  collections are written;
* `FeatureCollection.ofJson?_of_mem_leaves`: no leaf reads as a collection, so a value that is added
  is taken apart completely;
* `FeatureCollection.ofJson?_toJson`: a collection is read back from its stored form. Adding that
  form appends the features of a collection as they are if it is flat (`FeatureCollection.Flat`).
-/

namespace Labeling

namespace FeatureCollection

/-! ## Collections inside collections -/

/-- A value is a feature of the collection that another value reads as. -/
def Within (w v : Json) : Prop := ∃ c, ofJson? v = some c ∧ w ∈ c.features

/-- No collection holds collections without end. -/
theorem wellFounded_within : WellFounded Within :=
  Subrelation.wf (fun ⟨_, hc, hw⟩ => sizeOf_lt_of_mem_features hc hw) (measure sizeOf).wf

/-- What holds of every value that is no collection, and of a collection if it holds of its
features, holds of all values. -/
theorem within_induction {motive : Json → Prop}
    (feature : ∀ v, ofJson? v = none → motive v)
    (collection : ∀ v nested, ofJson? v = some nested → (∀ w ∈ nested.features, motive w) →
      motive v) (v : Json) : motive v := by
  induction v using wellFounded_within.induction with
  | h v ih =>
    cases h : ofJson? v with
    | none => exact feature v h
    | some nested => exact collection v nested h fun w hw => ih w ⟨nested, h, hw⟩

/-- A collection has the leaves of its features, in order, and anything else is its only leaf. -/
theorem leaves_eq (v : Json) :
    v.leaves = match ofJson? v with
      | some nested => nested.features.flatMap Json.leaves
      | none => [v] := by
  rw [Json.leaves]
  split <;> rename_i h <;> simp [h]

/-- The features of a collection are added one by one, and anything else is added as a feature. -/
theorem add_eq_match (c : FeatureCollection) (v : Json) :
    c.add v = match ofJson? v with
      | some nested => nested.features.foldl add c
      | none => { c with features := c.features ++ [v] } := by
  rw [add]
  split <;> rename_i h <;> simp [h]

variable {v : Json} {nested : FeatureCollection}

theorem leaves_feature (h : ofJson? v = none) : v.leaves = [v] := by
  rw [leaves_eq, h]

theorem leaves_collection (h : ofJson? v = some nested) :
    v.leaves = nested.features.flatMap Json.leaves := by
  rw [leaves_eq, h]

theorem add_feature (h : ofJson? v = none) (c : FeatureCollection) :
    c.add v = { c with features := c.features ++ [v] } := by
  rw [add_eq_match, h]

theorem add_collection (h : ofJson? v = some nested) (c : FeatureCollection) :
    c.add v = nested.features.foldl add c := by
  rw [add_eq_match, h]

/-! ## What is added -/

/-- A collection with some more features at its end. -/
def extend (c : FeatureCollection) (vs : List Json) : FeatureCollection :=
  { c with features := c.features ++ vs }

/-- Values whose leaves are added one by one add all their leaves in order. -/
theorem foldl_add {vs : List Json}
    (h : ∀ w ∈ vs, ∀ c : FeatureCollection, c.add w = c.extend w.leaves) (c : FeatureCollection) :
    vs.foldl add c = c.extend (vs.flatMap Json.leaves) := by
  induction vs generalizing c with
  | nil => simp [extend]
  | cons w vs ih =>
    rw [List.foldl_cons, h w (List.mem_cons_self ..),
      ih (fun w' hw' => h w' (List.mem_cons_of_mem _ hw')), List.flatMap_cons]
    simp [extend]

/-- A value adds its leaves. -/
theorem add_eq (c : FeatureCollection) (v : Json) : c.add v = c.extend v.leaves := by
  induction v using within_induction generalizing c with
  | feature v h => rw [add_feature h, leaves_feature h, extend]
  | collection v nested h ih => rw [add_collection h, leaves_collection h, foldl_add ih]

/-- No leaf reads as a collection. -/
theorem ofJson?_of_mem_leaves {v w : Json} (hw : w ∈ v.leaves) : ofJson? w = none := by
  induction v using within_induction with
  | feature v h =>
    rw [leaves_feature h] at hw
    exact List.mem_singleton.1 hw ▸ h
  | collection v nested h ih =>
    rw [leaves_collection h] at hw
    obtain ⟨u, hu, hw⟩ := List.mem_flatMap.1 hw
    exact ih u hu hw

/-! ## Collections without collections -/

/-- No feature reads as a collection. -/
def Flat (c : FeatureCollection) : Prop := ∀ w ∈ c.features, ofJson? w = none

theorem Flat.leaves_eq {c : FeatureCollection} (h : c.Flat) :
    c.features.flatMap Json.leaves = c.features := by
  have hone : c.features.map Json.leaves = c.features.map fun w => [w] :=
    List.map_congr_left fun w hw => leaves_feature (h w hw)
  rw [List.flatMap_def, hone, ← List.flatMap_def, List.flatMap_singleton']

/-- A collection is read back from its stored form. -/
theorem ofJson?_toJson {c : FeatureCollection} (h : c.kind = typeName) :
    ofJson? c.toJson = some c := by
  have hsorted : c.toJson = .obj [("features", .arr c.features), ("type", .str c.kind)] := by
    have hlt : "features" < "type" := by decide
    simp [toJson, Json.object, Fields.ofList, Fields.insert, hlt]
  have hread : read? c.toJson = some c := by
    rw [hsorted]
    rfl
  unfold ofJson?
  rw [hread]
  exact if_pos h

/-! ## Adding -/

/-- Whatever is added to a collection, taking it apart comes to an end. The features of the
collection stay where they are and the leaves of what is added follow, in their order; and its kind
stays as well. No leaf reads as a collection. Adding a collection comes to the same as adding its
features one by one, and adding the stored form of a collection that is flat to the same as
appending its features. -/
theorem add_flattens (c : FeatureCollection) (v : Json) :
    Acc Within v ∧
    (c.add v).kind = c.kind ∧
    (c.add v).features = c.features ++ v.leaves ∧
    (v.leaves = match ofJson? v with
      | some nested => nested.features.flatMap Json.leaves
      | none => [v]) ∧
    (∀ w ∈ v.leaves, ofJson? w = none) ∧
    (∀ nested, ofJson? v = some nested → c.add v = nested.features.foldl add c) ∧
    ∀ flat : FeatureCollection, flat.kind = typeName → flat.Flat →
      (c.add flat.toJson).features = c.features ++ flat.features := by
  refine ⟨wellFounded_within.apply v, ?_, ?_, leaves_eq v, fun w => ofJson?_of_mem_leaves,
    fun nested h => add_collection h c, fun flat hkind hflat => ?_⟩
  · rw [add_eq, extend]
  · rw [add_eq, extend]
  · rw [add_eq, leaves_collection (ofJson?_toJson hkind), hflat.leaves_eq, extend]

/-- What looks like a collection but is none, since its features are not a list. -/
def lookalike : Json := .obj [("features", .null), ("type", .str typeName)]

/-- A collection of a feature, of a collection that is written as an array and holds one without
features, and of a value that only looks like one. -/
def mixed : Json :=
  .obj [("features", .arr [.str "road",
      .arr [.str typeName, .arr [.int 1, .obj [("type", .str typeName)]]], lookalike]),
    ("type", .str typeName)]

/-- What is in it after all. -/
def mixedLeaves : List Json := [.str "road", .int 1, lookalike]

theorem flat_mixedLeaves : Flat ⟨typeName, mixedLeaves⟩ := by
  intro w hw
  simp only [mixedLeaves, List.mem_cons, List.not_mem_nil, or_false] at hw
  rcases hw with rfl | rfl | rfl <;> rfl

theorem leaves_mixed : mixed.leaves = mixedLeaves := by
  have hinner : ofJson? (.arr [.str typeName, .arr [.int 1, .obj [("type", .str typeName)]]]) =
      some ⟨typeName, [.int 1, .obj [("type", .str typeName)]]⟩ := rfl
  have hbare : ofJson? (.obj [("type", .str typeName)]) = some empty := rfl
  have houter : ofJson? mixed = some ⟨typeName, [.str "road",
    .arr [.str typeName, .arr [.int 1, .obj [("type", .str typeName)]]], lookalike]⟩ := rfl
  rw [leaves_collection houter]
  simp only [List.flatMap_cons, List.flatMap_nil, leaves_collection hinner,
    leaves_collection hbare, leaves_feature (v := .str "road") rfl,
    leaves_feature (v := .int 1) rfl, leaves_feature (v := lookalike) rfl, empty]
  rfl

/-- The mixed collection is added to a feature that was there before, and its stored leaves once
more. -/
theorem add_flattens_mixed :
    ((⟨typeName, [.null]⟩ : FeatureCollection).add mixed).features = .null :: mixedLeaves ∧
    (∃ nested, ofJson? mixed = some nested ∧
      (⟨typeName, [.null]⟩ : FeatureCollection).add mixed =
        nested.features.foldl add ⟨typeName, [.null]⟩) ∧
    Flat ⟨typeName, mixedLeaves⟩ ∧
    ((⟨typeName, [.null]⟩ : FeatureCollection).add (toJson ⟨typeName, mixedLeaves⟩)).features =
      .null :: mixedLeaves := by
  obtain ⟨-, -, hfeatures, -, -, hcollection, hflat⟩ := add_flattens ⟨typeName, [.null]⟩ mixed
  rw [leaves_mixed] at hfeatures
  exact ⟨hfeatures, ⟨_, rfl, hcollection _ rfl⟩, flat_mixedLeaves,
    hflat ⟨typeName, mixedLeaves⟩ rfl flat_mixedLeaves⟩

end FeatureCollection

end Labeling
