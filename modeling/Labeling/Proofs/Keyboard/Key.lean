import Labeling.Keyboard.Key

/-!
# The names of keys

A key that is read from a name is not the key of the space character (`Key.ne_char_space`), and every
other key is read from the name it is written with (`Key.ofName?_name`). A name that is not in the
table is a single character (`Key.ofName?_of_long`).
-/

namespace Labeling

namespace Key

theorem lookup_table_of_not_mem {text : String} (h : text ∉ table.map Prod.fst) :
    table.lookup text = none := by
  refine List.lookup_eq_none_iff.mpr fun entry hentry => bne_iff_ne.mpr ?_
  rintro rfl
  exact h (List.mem_map_of_mem hentry)

/-- The only name in the table that is a single character is the space. -/
theorem not_mem_table_of_single {text : String} {c : Char} (htext : text.toList = [c])
    (hc : c ≠ ' ') : text ∉ table.map Prod.fst := by
  have hlong : ∀ name ∈ table.map Prod.fst, name.toList.length ≠ 1 ∨ name.toList = [' '] := by
    decide
  intro hmem
  rcases hlong text hmem with hlength | hspace
  · exact hlength (by rw [htext]; rfl)
  · exact hc (List.cons.inj (htext.symm.trans hspace)).1

theorem ofName?_of_single {text : String} {c : Char} (htext : text.toList = [c]) (hc : c ≠ ' ') :
    ofName? text = some (.char c) := by
  rw [ofName?, lookup_table_of_not_mem (not_mem_table_of_single htext hc), htext]

/-- A key is read from the name it is written with, unless it is that of the space character, whose
name is another name of the space key. -/
theorem ofName?_name {key : Key} (h : key ≠ .char ' ') : ofName? key.name = some key := by
  cases key with
  | char c =>
    exact ofName?_of_single (String.toList_singleton c) fun hc => h (congrArg Key.char hc)
  | _ => rfl

/-- No text names the key of the space character. -/
theorem ne_char_space {text : String} {key : Key} (h : ofName? text = some key) :
    key ≠ .char ' ' := by
  have htable : ∀ entry ∈ table, entry.2 ≠ .char ' ' := by decide
  unfold ofName? at h
  split at h
  · rename_i found hfound
    cases h
    obtain ⟨_, _, hsplit, -⟩ := List.lookup_eq_some_iff.mp hfound
    exact htable (text, key) (hsplit ▸ List.mem_append_right _ (List.mem_cons_self ..))
  · rename_i hnone
    split at h
    · rename_i c hc
      cases h
      intro hspace
      cases hspace
      have htext : text = " " := String.toList_inj.mp hc
      rw [htext] at hnone
      cases hnone
    · cases h

/-- A text of more than one character names a key only if it is in the table. -/
theorem ofName?_of_long {text : String} (hlong : 2 ≤ text.length)
    (hmem : text ∉ table.map Prod.fst) : ofName? text = none := by
  rw [ofName?, lookup_table_of_not_mem hmem]
  dsimp only
  split
  · rename_i c hc
    rw [← String.length_toList, hc, List.length_singleton] at hlong
    exact absurd hlong (by decide)
  · rfl

theorem ofName_eq_ok {text : String} {key : Key} :
    ofName text = .ok key ↔ ofName? text = some key := by
  unfold ofName
  cases ofName? text with
  | none => simp
  | some found => simp

/-- What is read is read again from the name it is written with. -/
theorem ofName_name {text : String} {key : Key} (h : ofName text = .ok key) :
    ofName key.name = .ok key :=
  ofName_eq_ok.mpr (ofName?_name (ne_char_space (ofName_eq_ok.mp h)))

theorem ofName_of_long {text : String} (hlong : 2 ≤ text.length)
    (hmem : text ∉ table.map Prod.fst) : ofName text = .error (unknownMessage text) := by
  rw [ofName, ofName?_of_long hlong hmem]

end Key

end Labeling
