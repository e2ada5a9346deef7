import Labeling.Item

/-!
# Lists of entries, shortened, filled up and changed

What is kept for the frames of an item is a list with one entry for each of them, and often an
entry is a list in turn. This module says what the two ways of changing such a list leave in it:
`resized`, which brings it to the number of frames, and `List.modify`, which changes one entry.
-/

namespace Labeling

@[simp] theorem length_resized {β : Type} (length : Nat) (filler : β) (items : List β) :
    (resized length filler items).length = length := by
  simp only [resized, List.length_append, List.length_take, List.length_replicate]
  omega

theorem mem_resized {β : Type} {length : Nat} {filler x : β} {items : List β}
    (h : x ∈ resized length filler items) : x ∈ items ∨ x = filler := by
  unfold resized at h
  rcases List.mem_append.1 h with h | h
  · exact Or.inl (List.mem_of_mem_take h)
  · exact Or.inr (List.eq_of_mem_replicate h)

/-- A list of the right length stays as it is. -/
theorem resized_of_length {β : Type} {length : Nat} {filler : β} {items : List β}
    (h : items.length = length) : resized length filler items = items := by
  subst h
  simp [resized]

theorem map_resized {β γ : Type} (f : β → γ) (length : Nat) (filler : β) (items : List β) :
    (resized length filler items).map f = resized length (f filler) (items.map f) := by
  simp [resized, List.map_take]

/-- A changed list holds what it held before, but for the changed member. -/
theorem mem_modify {β : Type} {xs : List β} {index : Nat} {f : β → β} {y : β}
    (h : y ∈ xs.modify index f) : y ∈ xs ∨ ∃ x, xs[index]? = some x ∧ y = f x := by
  obtain ⟨k, hk⟩ := List.mem_iff_getElem?.1 h
  by_cases hi : index = k
  · rw [hi, List.getElem?_modify_eq] at hk
    obtain ⟨x, hx, rfl⟩ := Option.map_eq_some_iff.1 hk
    exact Or.inr ⟨x, hi ▸ hx, rfl⟩
  · rw [List.getElem?_modify_ne _ _ hi] at hk
    exact Or.inl (List.mem_of_getElem? hk)

/-- A change of one member sets that member. -/
theorem modify_eq_set_of_getElem? {β : Type} {xs : List β} {index : Nat} {x : β} (f : β → β)
    (h : xs[index]? = some x) : xs.modify index f = xs.set index (f x) := by
  refine List.ext_getElem? fun k => ?_
  obtain ⟨hlt, hx⟩ := List.getElem?_eq_some_iff.1 h
  rw [List.getElem?_modify, List.getElem?_set]
  by_cases hk : index = k
  · subst hk
    simp [hlt, hx]
  · simp [hk]

theorem map_eq_mapIdx {β γ : Type} (f : β → γ) (xs : List β) : xs.map f = xs.mapIdx fun _ => f := by
  refine List.ext_getElem? fun k => ?_
  simp

theorem mapIdx_same {β : Type} (xs : List β) : (xs.mapIdx fun _ x => x) = xs := by
  refine List.ext_getElem? fun k => ?_
  simp

/-- A change of one member is one of all members that depends on the place. -/
theorem modify_eq_mapIdx {β : Type} (xs : List β) (index : Nat) (f : β → β) :
    xs.modify index f = xs.mapIdx fun k x => if k = index then f x else x := by
  refine List.ext_getElem? fun k => ?_
  rw [List.getElem?_modify, List.getElem?_mapIdx]
  by_cases h : index = k
  · simp [h]
  · simp [h, Ne.symm h]

/-- A change of one member changes a count by whether that member is counted. -/
theorem countP_modify {β : Type} {q : β → Bool} {f : β → β} {x : β} :
    ∀ {xs : List β} {index : Nat}, xs[index]? = some x →
      (xs.modify index f).countP q + (if q x then 1 else 0) =
        xs.countP q + (if q (f x) then 1 else 0)
  | y :: rest, 0, h => by
    obtain rfl : y = x := Option.some.inj h
    rw [List.modify_zero_cons, List.countP_cons, List.countP_cons]
    omega
  | y :: rest, index + 1, h => by
    have hrest : (rest.modify index f).countP q + _ = rest.countP q + _ := countP_modify h
    rw [List.modify_succ_cons, List.countP_cons, List.countP_cons]
    omega

/-- So it does for a member of one of several lists. -/
theorem countP_flatten_modify {β : Type} {q : β → Bool} {f : β → β} {index : Nat} {x : β} :
    ∀ {xss : List (List β)} {frame : Nat}, (xss[frame]?.getD [])[index]? = some x →
      (xss.modify frame fun xs => xs.modify index f).flatten.countP q + (if q x then 1 else 0) =
        xss.flatten.countP q + (if q (f x) then 1 else 0)
  | xs :: rest, 0, h => by
    have hxs : (xs.modify index f).countP q + _ = xs.countP q + _ := countP_modify h
    rw [List.modify_zero_cons, List.flatten_cons, List.flatten_cons, List.countP_append,
      List.countP_append]
    omega
  | xs :: rest, frame + 1, h => by
    have hrest : (rest.modify frame fun xs => xs.modify index f).flatten.countP q + _ =
        rest.flatten.countP q + _ := countP_flatten_modify h
    rw [List.modify_succ_cons, List.flatten_cons, List.flatten_cons, List.countP_append,
      List.countP_append]
    omega

end Labeling
