import Labeling.Json.Record

/-!
# Sorted fields

Objects are written with their names in order, whatever the order in which a record declares
its fields. For a reader of records this makes no difference: it finds a field by its name,
wherever it stands (`Record.field?_perm`).

* `Fields.perm_ofList`: sorting fields of different names only changes their order;
* `Fields.sorted_ofList` and `Fields.ofList_of_sorted`: what is sorted stays as it is;
* `Fields.get?_ofList_append` and `Fields.get?_ofList_filter`: what stands under a name in fields
  that were put together or left out; sorted fields are determined by it (`Fields.ext_of_sorted`);
* `Record.field?_written`: a field that was written is found, and one that was left out is not.
-/

namespace Labeling

namespace Fields

variable {β γ : Type}

/-! ## The order of fields -/

/-- A field of a new name is only put in its place. -/
theorem perm_insert {name : String} {fields : Fields β} (value : β)
    (h : name ∉ fields.map Prod.fst) :
    (insert name value fields).Perm ((name, value) :: fields) := by
  fun_induction insert name value fields with
  | case1 => exact .refl _
  | case2 n v rest hlt => exact .refl _
  | case3 v rest hlt => exact absurd (List.mem_cons_self ..) h
  | case4 n v rest hlt hne ih =>
    have hrest : name ∉ rest.map Prod.fst := fun hm => h (List.mem_cons_of_mem _ hm)
    exact ((ih hrest).cons (n, v)).trans (.swap ..)

theorem perm_foldl_insert {pairs : List (String × β)} (fields : Fields β)
    (h : ((fields ++ pairs).map Prod.fst).Nodup) :
    (pairs.foldl (fun fields pair => insert pair.1 pair.2 fields) fields).Perm
      (fields ++ pairs) := by
  induction pairs generalizing fields with
  | nil => rw [List.append_nil]; exact .refl _
  | cons pair rest ih =>
    have hmove : (fields ++ pair :: rest).Perm (pair :: fields ++ rest) := List.perm_middle
    have hnodup := (hmove.map Prod.fst).nodup_iff.1 h
    have hnew : pair.1 ∉ fields.map Prod.fst := by
      rw [List.cons_append, List.map_cons, List.nodup_cons, List.map_append] at hnodup
      exact fun hm => hnodup.1 (List.mem_append_left _ hm)
    have hins := perm_insert pair.2 hnew
    have hrest := ih _ (((hins.append_right rest).map Prod.fst).nodup_iff.2 hnodup)
    exact (hrest.trans (hins.append_right rest)).trans hmove.symm

/-- Sorting fields of different names only changes their order. -/
theorem perm_ofList {pairs : List (String × β)} (h : (pairs.map Prod.fst).Nodup) :
    (ofList pairs).Perm pairs :=
  perm_foldl_insert [] h

/-! ## Fields in order -/

theorem mem_map_fst_insert {name : String} {value : β} {fields : Fields β} {n : String}
    (h : n ∈ (insert name value fields).map Prod.fst) : n = name ∨ n ∈ fields.map Prod.fst := by
  fun_induction insert name value fields with
  | case1 => exact List.mem_cons.1 h
  | case2 n' v rest hlt => exact List.mem_cons.1 h
  | case3 v rest hlt => exact Or.inr h
  | case4 n' v rest hlt hne ih =>
    rcases List.mem_cons.1 h with rfl | h
    · exact Or.inr (List.mem_cons_self ..)
    · exact (ih h).imp_right (List.mem_cons_of_mem _)

/-- Of two different names one comes first. -/
theorem lt_of_not_lt {a b : String} (h : ¬ a < b) (hne : a ≠ b) : b < a := by
  by_cases hlt : b < a
  · exact hlt
  · exact absurd (String.le_antisymm (String.not_lt.1 hlt) (String.not_lt.1 h)) hne

/-- A field is put where it belongs. -/
theorem sorted_insert {fields : Fields β} (h : Sorted fields) (name : String) (value : β) :
    Sorted (insert name value fields) := by
  fun_induction insert name value fields with
  | case1 => exact List.pairwise_singleton _ _
  | case2 n v rest hlt =>
    have hhead := (List.pairwise_cons.1 h).1
    refine List.pairwise_cons.2 ⟨fun m hm => ?_, h⟩
    rcases List.mem_cons.1 hm with rfl | hm
    · exact hlt
    · exact String.lt_trans hlt (hhead m hm)
  | case3 v rest hlt => exact h
  | case4 n v rest hlt hne ih =>
    obtain ⟨hhead, htail⟩ := List.pairwise_cons.1 h
    refine List.pairwise_cons.2 ⟨fun m hm => ?_, ih htail⟩
    rcases mem_map_fst_insert hm with rfl | hm
    · exact lt_of_not_lt hlt hne
    · exact hhead m hm

theorem sorted_foldl_insert {pairs : List (String × β)} {fields : Fields β} (h : Sorted fields) :
    Sorted (pairs.foldl (fun fields pair => insert pair.1 pair.2 fields) fields) := by
  induction pairs generalizing fields with
  | nil => exact h
  | cons pair rest ih => exact ih (sorted_insert h pair.1 pair.2)

theorem sorted_ofList (pairs : List (String × β)) : Sorted (ofList pairs) :=
  sorted_foldl_insert List.Pairwise.nil

/-- A field is the one that was put there, or it was there before. -/
theorem mem_of_mem_insert {name : String} {value : β} {fields : Fields β} {f : String × β}
    (h : f ∈ insert name value fields) : f = (name, value) ∨ f ∈ fields := by
  fun_induction insert name value fields with
  | case1 => exact List.mem_cons.1 h
  | case2 => exact List.mem_cons.1 h
  | case3 => exact (List.mem_cons.1 h).imp_right (List.mem_cons_of_mem _)
  | case4 n v rest _ _ ih =>
    rcases List.mem_cons.1 h with rfl | h
    · exact Or.inr (List.mem_cons_self ..)
    · exact (ih h).imp_right (List.mem_cons_of_mem _)

theorem mem_foldl_insert {pairs : List (String × β)} {f : String × β} : ∀ {fields : Fields β},
    f ∈ pairs.foldl (fun fields pair => insert pair.1 pair.2 fields) fields →
      f ∈ fields ∨ f ∈ pairs := by
  induction pairs with
  | nil => exact Or.inl
  | cons pair rest ih =>
    intro fields h
    rcases ih h with h | h
    · rcases mem_of_mem_insert h with rfl | h
      · exact Or.inr (List.mem_cons_self ..)
      · exact Or.inl h
    · exact Or.inr (List.mem_cons_of_mem _ h)

theorem mem_of_mem_ofList {pairs : List (String × β)} {f : String × β} (h : f ∈ ofList pairs) :
    f ∈ pairs :=
  (mem_foldl_insert h).elim (fun hnil => by cases hnil) id

/-- A field whose name comes after all others is put at the end. -/
theorem insert_of_all_lt {name : String} {value : β} {fields : Fields β}
    (h : ∀ n ∈ fields.map Prod.fst, n < name) :
    insert name value fields = fields ++ [(name, value)] := by
  induction fields with
  | nil => rfl
  | cons field rest ih =>
    have hlt : field.1 < name := h _ (List.mem_cons_self ..)
    have hnot : ¬ name < field.1 := fun hgt => String.lt_irrefl _ (String.lt_trans hlt hgt)
    have hne : name ≠ field.1 := fun he => String.lt_irrefl _ (he ▸ hlt)
    rw [insert, if_neg hnot, if_neg hne, ih fun n hn => h n (List.mem_cons_of_mem _ hn)]
    rfl

theorem foldl_insert_of_sorted {pairs : List (String × β)} (fields : Fields β)
    (h : Sorted (fields ++ pairs)) :
    pairs.foldl (fun fields pair => insert pair.1 pair.2 fields) fields = fields ++ pairs := by
  induction pairs generalizing fields with
  | nil => exact (List.append_nil _).symm
  | cons pair rest ih =>
    have hlast : ∀ n ∈ fields.map Prod.fst, n < pair.1 := by
      unfold Sorted at h
      rw [List.map_append, List.pairwise_append] at h
      exact fun n hn => h.2.2 n hn pair.1 (List.mem_cons_self ..)
    rw [List.foldl_cons, insert_of_all_lt hlast, ih, List.append_assoc]
    · rfl
    · rwa [List.append_assoc]

/-- What is in order stays as it is. -/
theorem ofList_of_sorted {fields : Fields β} (h : Sorted fields) : ofList fields = fields :=
  foldl_insert_of_sorted [] h

@[simp] theorem ofList_ofList (pairs : List (String × β)) : ofList (ofList pairs) = ofList pairs :=
  ofList_of_sorted (sorted_ofList pairs)

/-! ## Values by name -/

theorem mem_of_get? {fields : Fields β} {name : String} {value : β}
    (h : get? fields name = some value) : (name, value) ∈ fields := by
  induction fields with
  | nil => cases h
  | cons f rest ih =>
    rw [get?] at h
    split at h
    · rename_i hname
      cases h
      exact hname ▸ List.mem_cons_self ..
    · exact List.mem_cons_of_mem _ (ih h)

/-- Fields in order are found under their names. -/
theorem get?_of_mem {fields : Fields β} (hs : Sorted fields) {f : String × β} (h : f ∈ fields) :
    get? fields f.1 = some f.2 := by
  induction fields with
  | nil => cases h
  | cons g rest ih =>
    obtain ⟨hhead, htail⟩ := List.pairwise_cons.1 hs
    rcases List.mem_cons.1 h with rfl | h
    · rw [get?, if_pos rfl]
    · have hne : g.1 ≠ f.1 := by
        intro hname
        exact String.lt_irrefl _ (hname ▸ hhead f.1 (List.mem_map_of_mem h))
      rw [get?, if_neg hne, ih htail h]

/-- A value that is put under a name is found there, and every other one where it was. -/
theorem get?_insert (name : String) (value : β) (fields : Fields β) (n : String) :
    get? (insert name value fields) n = if name = n then some value else get? fields n := by
  fun_induction insert name value fields with
  | case1 => rfl
  | case2 n' v rest hlt => rfl
  | case3 v rest hlt => by_cases h : name = n <;> simp [get?, h]
  | case4 n' v rest hlt hne ih =>
    rw [get?, get?, ih]
    by_cases h : n' = n
    · subst h
      simp [hne]
    · simp [h]

theorem get?_eq_none {fields : Fields β} {n : String} (h : n ∉ fields.map Prod.fst) :
    get? fields n = none := by
  induction fields with
  | nil => rfl
  | cons f rest ih =>
    obtain ⟨name, value⟩ := f
    simp only [List.map_cons, List.mem_cons, not_or] at h
    rw [get?, if_neg (Ne.symm h.1), ih h.2]

theorem get?_foldl_insert (pairs : List (String × β)) (fields : Fields β) (n : String) :
    get? (pairs.foldl (fun fields pair => insert pair.1 pair.2 fields) fields) n =
      (get? (ofList pairs) n).or (get? fields n) := by
  induction pairs generalizing fields with
  | nil => rfl
  | cons pair rest ih =>
    have hfirst : get? (ofList (pair :: rest)) n =
        (get? (ofList rest) n).or (get? (insert pair.1 pair.2 []) n) := ih _
    rw [List.foldl_cons, ih, hfirst, Option.or_assoc, get?_insert, get?_insert]
    by_cases h : pair.1 = n <;> simp [h, get?]

/-- Of two values under one name the later one stays. -/
theorem get?_ofList_append (pairs later : List (String × β)) (n : String) :
    get? (ofList (pairs ++ later)) n = (get? (ofList later) n).or (get? (ofList pairs) n) := by
  rw [← get?_foldl_insert, ofList, List.foldl_append]
  rfl

theorem get?_ofList_cons (pair : String × β) (rest : List (String × β)) (n : String) :
    get? (ofList (pair :: rest)) n =
      (get? (ofList rest) n).or (if pair.1 = n then some pair.2 else none) :=
  get?_ofList_append [pair] rest n

/-- What stands under a name depends on the pairs of that name alone. -/
theorem get?_ofList_filter (keep : String → Bool) (pairs : List (String × β)) (n : String) :
    get? (ofList (pairs.filter fun f => keep f.1)) n =
      if keep n then get? (ofList pairs) n else none := by
  induction pairs with
  | nil => cases keep n <;> rfl
  | cons pair rest ih =>
    by_cases hn : pair.1 = n
    · subst hn
      cases hk : keep pair.1 <;> simp [get?_ofList_cons, hk, ih]
    · cases hk : keep pair.1 <;> simp [get?_ofList_cons, hk, hn, ih]

/-- Before the first name there is nothing. -/
theorem get?_eq_none_of_lt {fields : Fields β} {n : String} (hs : Sorted fields)
    (h : ∀ f, fields.head? = some f → n < f.1) : get? fields n = none := by
  cases fields with
  | nil => rfl
  | cons f rest =>
    have hn : n < f.1 := h f rfl
    refine get?_eq_none fun hm => ?_
    rcases List.mem_cons.1 hm with rfl | hm
    · exact String.lt_irrefl _ hn
    · exact String.lt_irrefl _ (String.lt_trans hn ((List.pairwise_cons.1 hs).1 n hm))

/-- The rest of some fields in order has nothing under the first name. -/
theorem get?_tail {f : String × β} {rest : Fields β} (hs : Sorted (f :: rest)) :
    get? rest f.1 = none :=
  get?_eq_none fun hm => String.lt_irrefl _ ((List.pairwise_cons.1 hs).1 f.1 hm)

/-- Some of the fields in order hold what stood under a name, if that is one of them. -/
theorem get?_filter {fields : Fields β} (hs : Sorted fields) (q : String × β → Bool) (n : String) :
    get? (fields.filter q) n = (get? fields n).filter fun value => q (n, value) := by
  induction fields with
  | nil => rfl
  | cons f rest ih =>
    have hrest := ih (List.pairwise_cons.1 hs).2
    by_cases hn : f.1 = n
    · subst hn
      cases hq : q f with
      | true => simp [get?, hq, Option.filter_some]
      | false => simp [get?, hq, hrest, get?_tail hs, Option.filter_some]
    · cases hq : q f <;> simp [get?, hn, hq, hrest]

theorem Sorted.filter {fields : Fields β} (hs : Sorted fields) (q : String × β → Bool) :
    Sorted (fields.filter q) :=
  List.Pairwise.sublist (List.filter_sublist.map _) hs

/-- Fields in order are known by what stands under each name. -/
theorem ext_of_sorted {xs ys : Fields β} (hx : Sorted xs) (hy : Sorted ys)
    (h : ∀ n, get? xs n = get? ys n) : xs = ys := by
  induction xs generalizing ys with
  | nil =>
    cases ys with
    | nil => rfl
    | cons g ys => simpa [get?] using h g.1
  | cons f xs ih =>
    cases ys with
    | nil => simpa [get?] using h f.1
    | cons g ys =>
      have hge : ¬ f.1 < g.1 := by
        intro hlt
        have hnone : get? (f :: xs) f.1 = none :=
          (h f.1).trans (get?_eq_none_of_lt hy (by simpa using hlt))
        simp [get?] at hnone
      have hle : ¬ g.1 < f.1 := by
        intro hlt
        have hnone : get? (g :: ys) g.1 = none :=
          (h g.1).symm.trans (get?_eq_none_of_lt hx (by simpa using hlt))
        simp [get?] at hnone
      have hname : f.1 = g.1 := String.le_antisymm (String.not_lt.1 hle) (String.not_lt.1 hge)
      have hvalue : f.2 = g.2 := by simpa [get?, hname] using h f.1
      have hrest : xs = ys := by
        refine ih (List.pairwise_cons.1 hx).2 (List.pairwise_cons.1 hy).2 fun n => ?_
        by_cases hn : f.1 = n
        · rw [← hn, get?_tail hx, hname, get?_tail hy]
        · simpa [get?, hn, hname ▸ hn] using h n
      rw [Prod.ext hname hvalue, hrest]

/-! ## Values of another type -/

theorem get?_map (f : β → γ) (fields : Fields β) (name : String) :
    get? (fields.map fun p => (p.1, f p.2)) name = (get? fields name).map f := by
  induction fields with
  | nil => rfl
  | cons field rest ih =>
    rw [List.map_cons, get?, get?]
    split
    · rfl
    · exact ih

theorem Sorted.map {fields : Fields β} (h : Sorted fields) (f : β → γ) :
    Sorted (fields.map fun p => (p.1, f p.2)) := by
  unfold Sorted
  rw [List.map_map]
  exact h

theorem insert_map (f : β → γ) (name : String) (value : β) (fields : Fields β) :
    insert name (f value) (fields.map fun p => (p.1, f p.2)) =
      (insert name value fields).map fun p => (p.1, f p.2) := by
  induction fields with
  | nil => rfl
  | cons field rest ih =>
    rw [List.map_cons, insert, insert]
    split
    · rfl
    · split
      · rfl
      · rw [ih]
        rfl

/-- The order of fields does not depend on their values. -/
theorem ofList_map (f : β → γ) (pairs : List (String × β)) :
    ofList (pairs.map fun p => (p.1, f p.2)) = (ofList pairs).map fun p => (p.1, f p.2) := by
  have hfold : ∀ (pairs : List (String × β)) (fields : Fields β),
      (pairs.map fun p => (p.1, f p.2)).foldl (fun fields pair => insert pair.1 pair.2 fields)
          (fields.map fun p => (p.1, f p.2)) =
        (pairs.foldl (fun fields pair => insert pair.1 pair.2 fields) fields).map
          fun p => (p.1, f p.2) := by
    intro pairs
    induction pairs with
    | nil => exact fun _ => rfl
    | cons pair rest ih =>
      intro fields
      rw [List.map_cons, List.foldl_cons, List.foldl_cons]
      have hfirst := insert_map f pair.1 pair.2 fields
      dsimp only
      rw [hfirst]
      exact ih _
  exact hfold pairs []

end Fields

/-! ## Reading by name -/

namespace Record

variable {ν : Type}

/-- A field is found by its names wherever it stands. -/
theorem field?_perm {fields fields' : List (String × ν)} (h : fields.Perm fields')
    (position : Nat) (names : List String) :
    (Record.named fields).field? position names = (Record.named fields').field? position names := by
  have hperm := h.filter fun f => names.contains f.1
  unfold field?
  dsimp only
  generalize fields.filter _ = found at hperm
  generalize fields'.filter _ = found' at hperm
  match found, hperm with
  | [], hperm => rw [List.nil_perm.1 hperm]
  | [f], hperm => rw [← hperm.singleton_eq]
  | f :: g :: rest, hperm =>
    match found', hperm.length_eq with
    | _ :: _ :: _, _ => rfl

/-- The fields of a record of which some are left out. -/
def written (entries : List (String × Option ν)) : List (String × ν) :=
  entries.flatMap fun e => (e.2.map fun v => (e.1, v)).toList

theorem written_cons (name : String) (value : Option ν) (rest : List (String × Option ν)) :
    written ((name, value) :: rest) = (value.map fun v => (name, v)).toList ++ written rest :=
  List.flatMap_cons

theorem mem_map_fst_written {entries : List (String × Option ν)} {name : String}
    (h : name ∈ (written entries).map Prod.fst) : name ∈ entries.map Prod.fst := by
  obtain ⟨f, hf, rfl⟩ := List.mem_map.1 h
  obtain ⟨e, he, hf⟩ := List.mem_flatMap.1 hf
  obtain ⟨v, -, rfl⟩ := Option.map_eq_some_iff.1 (Option.mem_toList.1 hf)
  exact List.mem_map_of_mem he

theorem nodup_map_fst_written {entries : List (String × Option ν)}
    (h : (entries.map Prod.fst).Nodup) : ((written entries).map Prod.fst).Nodup := by
  induction entries with
  | nil => exact List.nodup_nil
  | cons e rest ih =>
    obtain ⟨name, value⟩ := e
    obtain ⟨hnew, hrest⟩ := List.nodup_cons.1 h
    rw [written_cons]
    cases value with
    | none => exact ih hrest
    | some v => exact List.nodup_cons.2 ⟨fun hm => hnew (mem_map_fst_written hm), ih hrest⟩

theorem filter_written_of_not_mem {entries : List (String × Option ν)} {name : String}
    (h : name ∉ entries.map Prod.fst) :
    (written entries).filter (fun f => [name].contains f.1) = [] := by
  refine List.filter_eq_nil_iff.2 fun f hf hname => h ?_
  have heq : f.1 = name := by simpa using hname
  exact heq ▸ mem_map_fst_written (List.mem_map_of_mem hf)

theorem filter_written {entries : List (String × Option ν)} {name : String} {value : Option ν}
    (hnodup : (entries.map Prod.fst).Nodup) (h : (name, value) ∈ entries) :
    (written entries).filter (fun f => [name].contains f.1) =
      (value.map fun v => (name, v)).toList := by
  induction entries with
  | nil => cases h
  | cons e rest ih =>
    obtain ⟨hnew, hrest⟩ := List.nodup_cons.1 hnodup
    obtain ⟨n, w⟩ := e
    rw [written_cons, List.filter_append]
    rcases List.mem_cons.1 h with heq | h
    · cases heq
      rw [filter_written_of_not_mem hnew, List.append_nil]
      cases value <;> simp
    · have hne : n ≠ name := by
        rintro rfl
        exact hnew (List.mem_map.2 ⟨_, h, rfl⟩)
      rw [ih hrest h]
      cases w <;> simp [hne]

/-- In a record whose fields have different names, a field that was written is found, and one
that was left out is not, in whatever order the fields stand. -/
theorem field?_written {entries : List (String × Option ν)} {name : String} {value : Option ν}
    (hnodup : (entries.map Prod.fst).Nodup) (h : (name, value) ∈ entries) (position : Nat) :
    (Record.named (Fields.ofList (written entries))).field? position [name] = some value := by
  rw [field?_perm (Fields.perm_ofList (nodup_map_fst_written hnodup))]
  unfold field?
  dsimp only
  rw [filter_written hnodup h]
  cases value <;> rfl

end Record

end Labeling
