import Labeling.Proofs.Json.Floats
import Labeling.Proofs.Json.Strings

/-!
# Printed values are read back

Every value that is printed can be read, in the compact form (`Document.ofText?_text`) and in the one
for people (`Document.ofText?_pretty`): the reader finds the same arrays and objects, with the same names
in the same order, and in them the same strings, truth values and integers (`Json.document`). Only what
it makes of a floating-point number is left open, as the reader does not round correctly; it is what it
makes of the text of that number alone.

The two forms differ in blanks only. A `Spacing` says where these stand, and both forms are
`Spacing.write` for some spacing, so that what is read back is proved once.
-/

namespace Labeling

namespace Json

/-- What holds of a value whenever it holds of its items and of the values of its fields. -/
theorem parts_induction {P : Json → Prop} (null : P .null) (bool : ∀ b, P (.bool b))
    (int : ∀ n, P (.int n)) (float : ∀ x, P (.float x)) (str : ∀ s, P (.str s))
    (arr : ∀ items, (∀ v ∈ items, P v) → P (.arr items))
    (obj : ∀ fields, (∀ f ∈ fields, P f.2) → P (.obj fields)) (v : Json) : P v := by
  refine Json.rec (motive_1 := P) (motive_2 := fun items => ∀ v ∈ items, P v)
    (motive_3 := fun fields => ∀ f ∈ fields, P f.2) (motive_4 := fun f => P f.2)
    null bool int float str arr obj ?nil ?cons ?fnil ?fcons ?mk v
  case nil => exact fun v hv => by cases hv
  case cons => exact fun v rest hv hrest => List.forall_mem_cons.2 ⟨hv, hrest⟩
  case fnil => exact fun f hf => by cases hf
  case fcons => exact fun f rest hf hrest => List.forall_mem_cons.2 ⟨hf, hrest⟩
  case mk => exact fun _ _ hv => hv

/-! ## The document of a value -/

mutual

/-- What is read from the text of a value. -/
def document : Json → Document
  | .null => .leaf (some .null)
  | .bool b => .leaf (some (.bool b))
  | .int n => .leaf (Spelling.ofInt n).numeral.value?
  | .float x => .leaf (ofText? (floatText x))
  | .str s => .leaf (some (.str s))
  | .arr items => .arr (documents items)
  | .obj fields => .obj (namedDocuments fields)

/-- What is read from the texts of some items. -/
def documents : List Json → List Document
  | [] => []
  | v :: rest => document v :: documents rest

/-- What is read from the texts of some fields. -/
def namedDocuments : List (String × Json) → List (Option String × Document)
  | [] => []
  | (name, v) :: rest => (some name, document v) :: namedDocuments rest

end

/-! ## Written texts -/

theorem writeString_append (s : String) (rest : List Char) :
    writeString s rest = writeString s [] ++ rest := by
  simp [writeString]

end Json

open Reader

/-- The blanks of a written text. -/
structure Spacing where
  /-- What stands before the items and fields of a level, and before what closes it. -/
  gap : Nat → List Char
  /-- What stands after a colon. -/
  colon : List Char
  gap_blank : ∀ level, ∀ c ∈ gap level, isBlank c = true
  colon_blank : ∀ c ∈ colon, isBlank c = true

namespace Spacing

open Json

/-- No blanks at all. -/
def compact : Spacing where
  gap _ := []
  colon := []
  gap_blank _ := List.forall_mem_nil _
  colon_blank := List.forall_mem_nil _

/-- One item or field a line, and a space after a colon. -/
def pretty : Spacing where
  gap level := '\n' :: List.replicate (2 * level) ' '
  colon := [' ']
  gap_blank level := by
    refine List.forall_mem_cons.2 ⟨rfl, fun c hc => ?_⟩
    rw [List.eq_of_mem_replicate hc]
    rfl
  colon_blank := List.forall_mem_singleton.2 rfl

variable (sp : Spacing)

mutual

/-- Write a value that stands at a level. -/
def write (level : Nat) : Json → List Char → List Char
  | .arr [], rest => '[' :: ']' :: rest
  | .arr (v :: vs), rest =>
    '[' :: (sp.gap (level + 1) ++ write (level + 1) v
      (writeItems (level + 1) vs (sp.gap level ++ ']' :: rest)))
  | .obj [], rest => '{' :: '}' :: rest
  | .obj ((n, v) :: fs), rest =>
    '{' :: (sp.gap (level + 1) ++ writeString n (':' :: (sp.colon ++ write (level + 1) v
      (writeFields (level + 1) fs (sp.gap level ++ '}' :: rest)))))
  | .null, rest => Json.write .null rest
  | .bool b, rest => Json.write (.bool b) rest
  | .int n, rest => Json.write (.int n) rest
  | .float x, rest => Json.write (.float x) rest
  | .str s, rest => Json.write (.str s) rest

/-- Write the items after the first one. -/
def writeItems (level : Nat) : List Json → List Char → List Char
  | [], rest => rest
  | v :: vs, rest => ',' :: (sp.gap level ++ write level v (writeItems level vs rest))

/-- Write the fields after the first one. -/
def writeFields (level : Nat) : List (String × Json) → List Char → List Char
  | [], rest => rest
  | (n, v) :: fs, rest =>
    ',' :: (sp.gap level ++
      writeString n (':' :: (sp.colon ++ write level v (writeFields level fs rest))))

end

/-! ## The two forms -/

theorem writeItems_compact {items : List Json}
    (h : ∀ v ∈ items, ∀ level rest, compact.write level v rest = v.write rest) (level : Nat)
    (rest : List Char) : compact.writeItems level items rest = Json.writeItems items rest := by
  induction items with
  | nil => rfl
  | cons v vs ih =>
    obtain ⟨hv, hvs⟩ := List.forall_mem_cons.1 h
    rw [writeItems, Json.writeItems, ih hvs, hv]
    rfl

theorem writeFields_compact {fields : List (String × Json)}
    (h : ∀ f ∈ fields, ∀ level rest, compact.write level f.2 rest = f.2.write rest) (level : Nat)
    (rest : List Char) : compact.writeFields level fields rest = Json.writeFields fields rest := by
  induction fields with
  | nil => rfl
  | cons f fs ih =>
    obtain ⟨hv, hfs⟩ := List.forall_mem_cons.1 h
    rw [writeFields, Json.writeFields, ih hfs, hv]
    rfl

/-- The compact form has no blanks. -/
theorem write_compact (v : Json) : ∀ level rest, compact.write level v rest = v.write rest := by
  induction v using parts_induction with
  | arr items ih =>
    cases items with
    | nil => exact fun _ _ => rfl
    | cons v vs =>
      obtain ⟨hv, hvs⟩ := List.forall_mem_cons.1 ih
      intro level rest
      rw [write, Json.write, hv, writeItems_compact hvs]
      rfl
  | obj fields ih =>
    cases fields with
    | nil => exact fun _ _ => rfl
    | cons f fs =>
      obtain ⟨hv, hfs⟩ := List.forall_mem_cons.1 ih
      intro level rest
      rw [write, Json.write, hv, writeFields_compact hfs]
      rfl
  | _ => exact fun _ _ => rfl

theorem writeItems_pretty {items : List Json}
    (h : ∀ v ∈ items, ∀ level rest, pretty.write level v rest = v.writePretty level rest)
    (level : Nat) (rest : List Char) :
    pretty.writeItems level items rest = writePrettyItems level items rest := by
  induction items with
  | nil => rfl
  | cons v vs ih =>
    obtain ⟨hv, hvs⟩ := List.forall_mem_cons.1 h
    rw [writeItems, writePrettyItems, ih hvs, hv]
    rfl

theorem writeFields_pretty {fields : List (String × Json)}
    (h : ∀ f ∈ fields, ∀ level rest, pretty.write level f.2 rest = f.2.writePretty level rest)
    (level : Nat) (rest : List Char) :
    pretty.writeFields level fields rest = writePrettyFields level fields rest := by
  induction fields with
  | nil => rfl
  | cons f fs ih =>
    obtain ⟨hv, hfs⟩ := List.forall_mem_cons.1 h
    rw [writeFields, writePrettyFields, ih hfs, hv]
    rfl

/-- The form for people has a line for every item and field. -/
theorem write_pretty (v : Json) :
    ∀ level rest, pretty.write level v rest = v.writePretty level rest := by
  induction v using parts_induction with
  | arr items ih =>
    cases items with
    | nil => exact fun _ _ => rfl
    | cons v vs =>
      obtain ⟨hv, hvs⟩ := List.forall_mem_cons.1 ih
      intro level rest
      rw [write, writePretty, hv, writeItems_pretty hvs]
      rfl
  | obj fields ih =>
    cases fields with
    | nil => exact fun _ _ => rfl
    | cons f fs =>
      obtain ⟨hv, hfs⟩ := List.forall_mem_cons.1 ih
      intro level rest
      rw [write, writePretty, hv, writeFields_pretty hfs]
      rfl
  | _ => exact fun _ _ => rfl

/-! ## What comes after -/

variable {sp}

theorem writeItems_append {items : List Json} {level : Nat}
    (h : ∀ v ∈ items, ∀ rest, sp.write level v rest = sp.write level v [] ++ rest)
    (rest : List Char) :
    sp.writeItems level items rest = sp.writeItems level items [] ++ rest := by
  induction items with
  | nil => rfl
  | cons v vs ih =>
    obtain ⟨hv, hvs⟩ := List.forall_mem_cons.1 h
    rw [writeItems, writeItems, hv (sp.writeItems level vs rest), hv (sp.writeItems level vs []),
      ih hvs]
    simp only [List.cons_append, List.append_assoc]

theorem writeFields_append {fields : List (String × Json)} {level : Nat}
    (h : ∀ f ∈ fields, ∀ rest, sp.write level f.2 rest = sp.write level f.2 [] ++ rest)
    (rest : List Char) :
    sp.writeFields level fields rest = sp.writeFields level fields [] ++ rest := by
  induction fields with
  | nil => rfl
  | cons f fs ih =>
    obtain ⟨name, v⟩ := f
    obtain ⟨hv, hfs⟩ := List.forall_mem_cons.1 h
    rw [writeFields, writeFields, hv (sp.writeFields level fs rest), hv (sp.writeFields level fs []),
      ih hfs, writeString_append name, writeString_append name (':' :: _)]
    simp only [List.cons_append, List.append_assoc]

/-- A value is written in front of what comes after. -/
theorem write_append (v : Json) :
    ∀ level rest, sp.write level v rest = sp.write level v [] ++ rest := by
  induction v using parts_induction with
  | null => exact fun _ _ => rfl
  | bool b => cases b <;> exact fun _ _ => rfl
  | int n => exact fun _ rest => by rw [write, write, Json.write, Json.write, List.append_nil]
  | float x => exact fun _ rest => by rw [write, write, Json.write, Json.write, List.append_nil]
  | str s => exact fun _ rest => writeString_append s rest
  | arr items ih =>
    cases items with
    | nil => exact fun _ _ => rfl
    | cons v vs =>
      obtain ⟨hv, hvs⟩ := List.forall_mem_cons.1 ih
      intro level rest
      have hitems (rest : List Char) : sp.writeItems (level + 1) vs rest =
          sp.writeItems (level + 1) vs [] ++ rest :=
        writeItems_append (fun w hw => hvs w hw (level + 1)) rest
      rw [write, write, hv, hv _ (sp.writeItems _ vs (_ ++ [']'])), hitems (_ ++ ']' :: rest),
        hitems (_ ++ [']'])]
      simp
  | obj fields ih =>
    cases fields with
    | nil => exact fun _ _ => rfl
    | cons f fs =>
      obtain ⟨name, v⟩ := f
      obtain ⟨hv, hfs⟩ := List.forall_mem_cons.1 ih
      intro level rest
      have hfields (rest : List Char) : sp.writeFields (level + 1) fs rest =
          sp.writeFields (level + 1) fs [] ++ rest :=
        writeFields_append (fun w hw => hfs w hw (level + 1)) rest
      rw [write, write, hv, hv _ (sp.writeFields _ fs (_ ++ ['}'])), hfields (_ ++ '}' :: rest),
        hfields (_ ++ ['}']), writeString_append name, writeString_append name (':' :: _)]
      simp

end Spacing

/-! ## What a value begins with -/

namespace Reader

/-- A number begins with this character. -/
def startsNumber (c : Char) : Bool := c == '-' || c.isDigit

theorem skipBlank_cons {c : Char} (hc : isBlank c = false) (cs : List Char) :
    skipBlank (c :: cs) = c :: cs :=
  List.dropWhile_cons_of_neg (by simp [hc])

/-- Blanks in front of a text are not read. -/
theorem skipBlank_append {bs : List Char} (h : ∀ c ∈ bs, isBlank c = true) (cs : List Char) :
    skipBlank (bs ++ cs) = skipBlank cs :=
  List.dropWhile_append_of_pos h

theorem value_append {bs : List Char} (h : ∀ c ∈ bs, isBlank c = true) (fuel : Nat)
    (cs : List Char) : value fuel (bs ++ cs) = value fuel cs := by
  cases fuel with
  | zero => rfl
  | succ fuel => rw [value, value, skipBlank_append h]

theorem items_append {bs : List Char} (h : ∀ c ∈ bs, isBlank c = true) (fuel : Nat)
    (cs : List Char) : items fuel (bs ++ cs) = items fuel cs := by
  cases fuel with
  | zero => rfl
  | succ fuel => rw [items, items, value_append h]

theorem members_append {bs : List Char} (h : ∀ c ∈ bs, isBlank c = true) (fuel : Nat)
    (cs : List Char) : members fuel (bs ++ cs) = members fuel cs := by
  cases fuel with
  | zero => rfl
  | succ fuel => rw [members, members, skipBlank_append h]

theorem not_goesOn_of_blank {c : Char} (hc : isBlank c = true) : goesOn c = false := by
  simp only [isBlank, Bool.or_eq_true, beq_iff_eq] at hc
  rcases hc with ((rfl | rfl) | rfl) | rfl <;> rfl

/-- A number ends before blanks as it ends before what follows them. -/
theorem stops_append {bs rest : List Char} (h : ∀ c ∈ bs, isBlank c = true)
    (hr : Stops goesOn rest) : Stops goesOn (bs ++ rest) := by
  cases bs with
  | nil => exact hr
  | cons b bs => exact stops_cons _ (not_goesOn_of_blank (h b (List.mem_cons_self ..)))

theorem not_blank_of_startsNumber {c : Char} (hc : startsNumber c = true) : isBlank c = false := by
  cases hb : isBlank c
  · rfl
  · simp only [isBlank, Bool.or_eq_true, beq_iff_eq] at hb
    rcases hb with ((rfl | rfl) | rfl) | rfl <;> cases hc

/-- What begins like a number is read as one. -/
theorem value_startsNumber {c : Char} (hc : startsNumber c = true) (fuel : Nat) (cs : List Char) :
    value (fuel + 1) (c :: cs) =
      (numeral (c :: cs)).map fun r => (.leaf r.1.value?, r.2) := by
  rw [value, skipBlank_cons (not_blank_of_startsNumber hc)]
  split
  case h_7 => cases numeral (c :: cs) <;> rfl
  all_goals
    rename_i heq
    cases heq
    cases hc

end Reader

theorem Spelling.text_eq_cons {s : Spelling} (h : s.Valid) :
    ∃ c cs, s.text = c :: cs ∧ startsNumber c = true := by
  obtain ⟨d, ds, hd⟩ := List.exists_cons_of_ne_nil h.whole_ne_nil
  unfold text
  cases s.negative with
  | true => exact ⟨'-', _, rfl, rfl⟩
  | false =>
    refine ⟨d, ds ++ _, by rw [hd]; rfl, ?_⟩
    rw [startsNumber, h.whole d (hd ▸ List.mem_cons_self ..), Bool.or_true]

/-- A number is read up to its end. -/
theorem Reader.value_spelling {s : Spelling} (h : s.Valid) {rest : List Char}
    (hr : Stops goesOn rest) (fuel : Nat) :
    value (fuel + 1) (s.text ++ rest) = some (.leaf s.numeral.value?, rest) := by
  have hread := Spelling.numeral_text h hr
  obtain ⟨c, cs, htext, hc⟩ := Spelling.text_eq_cons h
  rw [htext, List.cons_append] at hread ⊢
  rw [value_startsNumber hc, hread]
  rfl

/-- A text is read alone if it is read with nothing after it. -/
theorem Document.ofText?_eq {text : String} {d : Document}
    (h : value (2 * text.toList.length + 2) text.toList = some (d, [])) :
    Document.ofText? text = some d := by
  unfold Document.ofText?
  dsimp only
  rw [h]
  rfl

theorem Json.ofText?_eq_value? {text : String} {d : Document} (h : Document.ofText? text = some d)
    (hd : d.depth ≤ Json.depthLimit) : Json.ofText? text = d.value? := by
  unfold Json.ofText?
  rw [h]
  exact if_pos hd

/-- What is made of a number is what is made of its text alone. -/
theorem Reader.value_floatText (x : Float) {rest : List Char} (hr : Stops goesOn rest)
    (fuel : Nat) :
    value (fuel + 1) ((Json.floatText x).toList ++ rest) =
      some (.leaf (Json.ofText? (Json.floatText x)), rest) := by
  rcases Json.floatText_cases x with hx | ⟨s, hs, hx⟩
  · rw [hx]
    rfl
  · have halone : Json.ofText? (Json.floatText x) = s.numeral.value? := by
      have hread := value_spelling hs (stops_nil goesOn) (2 * s.text.length + 1)
      rw [List.append_nil, ← hx] at hread
      exact Json.ofText?_eq_value? (Document.ofText?_eq hread) (Nat.zero_le _)
    rw [hx, value_spelling hs hr, halone]

namespace Spacing

open Json

variable {sp : Spacing}

/-- A value begins with no blank, and with nothing that closes an array. -/
theorem write_eq_cons (level : Nat) (v : Json) (rest : List Char) :
    ∃ c cs, sp.write level v rest = c :: cs ∧ isBlank c = false ∧ c ≠ ']' := by
  have hnumber {s : Spelling} (hs : s.Valid) : ∃ c cs, s.text ++ rest = c :: cs ∧
      isBlank c = false ∧ c ≠ ']' := by
    obtain ⟨c, cs, htext, hc⟩ := Spelling.text_eq_cons hs
    refine ⟨c, cs ++ rest, by rw [htext]; rfl, not_blank_of_startsNumber hc, ?_⟩
    rintro rfl
    cases hc
  cases v with
  | null => exact ⟨'n', _, rfl, rfl, by decide⟩
  | bool b => cases b <;> exact ⟨_, _, rfl, rfl, by decide⟩
  | int n =>
    rw [write, Json.write, ← Spelling.text_ofInt]
    exact hnumber (Spelling.valid_ofInt n)
  | float x =>
    rw [write, Json.write]
    rcases floatText_cases x with hx | ⟨s, hs, hx⟩ <;> rw [hx]
    · exact ⟨'n', _, rfl, rfl, by decide⟩
    · exact hnumber hs
  | str s => exact ⟨'"', _, rfl, rfl, by decide⟩
  | arr items => cases items <;> exact ⟨'[', _, rfl, rfl, by decide⟩
  | obj fields => cases fields <;> exact ⟨'{', _, rfl, rfl, by decide⟩

/-! ## Reading what was written -/

variable (sp) in
/-- The text of the value is read as its document, up to whatever comes after. -/
def ReadBack (v : Json) : Prop :=
  ∀ {level fuel : Nat} {rest : List Char}, 2 * (sp.write level v []).length < fuel →
    Stops goesOn rest → value fuel (sp.write level v rest) = some (v.document, rest)

theorem readBack_of_fuel {v : Json} (h : ∀ (level fuel : Nat) {rest : List Char},
    2 * (sp.write level v []).length ≤ fuel → Stops goesOn rest →
      value (fuel + 1) (sp.write level v rest) = some (v.document, rest)) : sp.ReadBack v := by
  intro level fuel rest hfuel hr
  obtain ⟨n, rfl⟩ : ∃ n, fuel = n + 1 := ⟨fuel - 1, by omega⟩
  exact h level n (by omega) hr

theorem ReadBack.after_colon {v : Json} {level fuel : Nat} {rest : List Char} (hv : sp.ReadBack v)
    (hfuel : 2 * (sp.write level v []).length < fuel) (hr : Stops goesOn rest) :
    value fuel (sp.colon ++ sp.write level v rest) = some (v.document, rest) := by
  rw [value_append sp.colon_blank]
  exact hv hfuel hr

theorem stops_writeItems (level : Nat) (vs : List Json) {rest : List Char}
    (hr : Stops goesOn rest) : Stops goesOn (sp.writeItems level vs rest) := by
  cases vs with
  | nil => exact hr
  | cons => exact stops_cons _ rfl

theorem stops_writeFields (level : Nat) (fs : List (String × Json)) {rest : List Char}
    (hr : Stops goesOn rest) : Stops goesOn (sp.writeFields level fs rest) := by
  cases fs with
  | nil => exact hr
  | cons => exact stops_cons _ rfl

/-- What closes an array or an object ends a number. -/
theorem stops_close (sp : Spacing) (level : Nat) {c : Char} (hc : goesOn c = false)
    (rest : List Char) : Stops goesOn (sp.gap level ++ c :: rest) :=
  stops_append (sp.gap_blank level) (stops_cons _ hc)

section Steps

variable {fuel : Nat} {name : String} {cs rest tail : List Char} {d : Document}

/-- The last item of an array is followed by the closing bracket. -/
theorem items_last (hd : value fuel cs = some (d, rest)) (hrest : skipBlank rest = ']' :: tail) :
    items (fuel + 1) cs = some ([d], tail) := by
  simp only [items, hd, hrest, Option.bind_eq_bind, Option.bind_some]
  rfl

/-- After a comma come more items. -/
theorem items_more (hd : value fuel cs = some (d, rest)) (hrest : skipBlank rest = ',' :: tail) :
    items (fuel + 1) cs = (items fuel tail).bind fun r => some (d :: r.1, r.2) := by
  simp only [items, hd, hrest, Option.bind_eq_bind, Option.bind_some]
  rfl

/-- A field begins with its name, and the name comes back. -/
theorem members_writeString (fuel : Nat) (name : String) (cs : List Char) :
    members (fuel + 1) (writeString name (':' :: cs)) = (do
      let (d, rest) ← value fuel cs
      match skipBlank rest with
      | ',' :: rest =>
        let (fs, rest) ← members fuel rest
        return ((some name, d) :: fs, rest)
      | '}' :: rest => return ([(some name, d)], rest)
      | _ => none) := by
  have hquote : skipBlank (writeString name (':' :: cs)) =
      '"' :: (name.toList.flatMap escaped ++ '"' :: ':' :: cs) := rfl
  rw [members, hquote]
  split
  · rename_i heq
    rw [← (List.cons.inj heq).2, string_written]
    rfl
  · rename_i hother
    exact absurd rfl (hother _)

/-- The last field of an object is followed by the closing brace. -/
theorem members_last (hd : value fuel cs = some (d, rest)) (hrest : skipBlank rest = '}' :: tail) :
    members (fuel + 1) (writeString name (':' :: cs)) = some ([(some name, d)], tail) := by
  simp only [members_writeString, hd, hrest, Option.bind_eq_bind, Option.bind_some]
  rfl

/-- After a comma come more fields. -/
theorem members_more (hd : value fuel cs = some (d, rest)) (hrest : skipBlank rest = ',' :: tail) :
    members (fuel + 1) (writeString name (':' :: cs)) =
      (members fuel tail).bind fun r => some ((some name, d) :: r.1, r.2) := by
  simp only [members_writeString, hd, hrest, Option.bind_eq_bind, Option.bind_some]
  rfl

theorem value_bracket (fuel : Nat) (cs : List Char) :
    value (fuel + 1) ('[' :: cs) = (match skipBlank cs with
      | ']' :: rest => some (.arr [], rest)
      | rest => do
        let (ds, rest) ← items fuel rest
        return (.arr ds, rest)) := by
  rw [value]
  rfl

theorem value_brace (fuel : Nat) (cs : List Char) :
    value (fuel + 1) ('{' :: cs) = (match skipBlank cs with
      | '}' :: rest => some (.obj [], rest)
      | rest => do
        let (fs, rest) ← members fuel rest
        return (.obj fs, rest)) := by
  rw [value]
  rfl

end Steps

/-- The items of an array are read one after the other, up to the closing bracket. -/
theorem items_write {level k : Nat} {vs : List Json} : ∀ {v : Json}, sp.ReadBack v →
    (∀ w ∈ vs, sp.ReadBack w) → ∀ {fuel : Nat} (rest : List Char),
      2 * ((sp.write level v []).length + (sp.writeItems level vs []).length) + 1 < fuel →
      items fuel (sp.write level v (sp.writeItems level vs (sp.gap k ++ ']' :: rest))) =
        some (v.document :: documents vs, rest) := by
  induction vs with
  | nil =>
    intro v hv _ fuel rest hfuel
    obtain ⟨n, rfl⟩ : ∃ n, fuel = n + 1 := ⟨fuel - 1, by omega⟩
    exact items_last (hv (by omega) (stops_writeItems level [] (sp.stops_close k rfl rest)))
      (skipBlank_append (sp.gap_blank k) _)
  | cons w ws ih =>
    intro v hv hvs fuel rest hfuel
    obtain ⟨n, rfl⟩ : ∃ n, fuel = n + 1 := ⟨fuel - 1, by omega⟩
    obtain ⟨hw, hws⟩ := List.forall_mem_cons.1 hvs
    rw [writeItems, write_append w, List.length_cons, List.length_append, List.length_append] at hfuel
    rw [items_more (hv (by omega) (stops_writeItems level (w :: ws) (sp.stops_close k rfl rest))) rfl,
      items_append (sp.gap_blank level), ih hw hws rest (by omega)]
    rfl

/-- So are the fields of an object. -/
theorem members_write {level k : Nat} {fs : List (String × Json)} : ∀ {name : String} {v : Json},
    sp.ReadBack v → (∀ f ∈ fs, sp.ReadBack f.2) → ∀ {fuel : Nat} (rest : List Char),
      2 * ((sp.write level v []).length + (sp.writeFields level fs []).length) + 1 < fuel →
      members fuel (writeString name (':' :: (sp.colon ++
          sp.write level v (sp.writeFields level fs (sp.gap k ++ '}' :: rest))))) =
        some ((some name, v.document) :: namedDocuments fs, rest) := by
  induction fs with
  | nil =>
    intro name v hv _ fuel rest hfuel
    obtain ⟨n, rfl⟩ : ∃ n, fuel = n + 1 := ⟨fuel - 1, by omega⟩
    exact members_last
      (hv.after_colon (by omega) (stops_writeFields level [] (sp.stops_close k rfl rest)))
      (skipBlank_append (sp.gap_blank k) _)
  | cons f fs ih =>
    obtain ⟨name', w⟩ := f
    intro name v hv hfs fuel rest hfuel
    obtain ⟨n, rfl⟩ : ∃ n, fuel = n + 1 := ⟨fuel - 1, by omega⟩
    obtain ⟨hw, hfs⟩ : sp.ReadBack w ∧ ∀ f ∈ fs, sp.ReadBack f.2 := List.forall_mem_cons.1 hfs
    rw [writeFields, writeString_append, write_append w] at hfuel
    simp only [List.length_cons, List.length_append] at hfuel
    rw [members_more (hv.after_colon (by omega)
        (stops_writeFields level ((name', w) :: fs) (sp.stops_close k rfl rest))) rfl,
      members_append (sp.gap_blank level), ih hw hfs rest (by omega)]
    rfl

theorem readBack_arr {items : List Json} (h : ∀ v ∈ items, sp.ReadBack v) :
    sp.ReadBack (.arr items) := by
  refine readBack_of_fuel fun level fuel rest hfuel hr => ?_
  cases items with
  | nil => rfl
  | cons v vs =>
    obtain ⟨hv, hvs⟩ := List.forall_mem_cons.1 h
    obtain ⟨c, cs, hwrite, hblank, hclose⟩ := sp.write_eq_cons (level + 1) v
      (sp.writeItems (level + 1) vs (sp.gap level ++ ']' :: rest))
    have hitems : items fuel (sp.write (level + 1) v
        (sp.writeItems (level + 1) vs (sp.gap level ++ ']' :: rest))) =
        some (v.document :: documents vs, rest) := by
      rw [write, write_append v, writeItems_append fun w _ => write_append w _] at hfuel
      simp only [List.length_cons, List.length_append] at hfuel
      exact items_write hv hvs rest (by omega)
    rw [write, value_bracket, skipBlank_append (sp.gap_blank (level + 1)), hwrite,
      skipBlank_cons hblank]
    rw [hwrite] at hitems
    split
    · rename_i heq
      exact absurd (List.cons.inj heq).1 hclose
    · rw [hitems]
      rfl

theorem readBack_obj {fields : List (String × Json)} (h : ∀ f ∈ fields, sp.ReadBack f.2) :
    sp.ReadBack (.obj fields) := by
  refine readBack_of_fuel fun level fuel rest hfuel hr => ?_
  cases fields with
  | nil => rfl
  | cons f fs =>
    obtain ⟨name, v⟩ := f
    obtain ⟨hv, hfs⟩ : sp.ReadBack v ∧ ∀ f ∈ fs, sp.ReadBack f.2 := List.forall_mem_cons.1 h
    have hmembers : members fuel (writeString name (':' :: (sp.colon ++ sp.write (level + 1) v
        (sp.writeFields (level + 1) fs (sp.gap level ++ '}' :: rest))))) =
        some ((some name, v.document) :: namedDocuments fs, rest) := by
      rw [write, writeString_append, write_append v,
        writeFields_append (fun w _ => write_append w.2 _) _] at hfuel
      simp only [List.length_cons, List.length_append] at hfuel
      exact members_write hv hfs rest (by omega)
    rw [write, value_brace, skipBlank_append (sp.gap_blank (level + 1))]
    show (members fuel (writeString name _)).bind (fun r => some (Document.obj r.1, r.2)) = _
    rw [hmembers]
    rfl

/-- Whatever blanks it is written with, a value is read back. -/
theorem readBack (sp : Spacing) (v : Json) : sp.ReadBack v := by
  induction v using parts_induction with
  | null => exact readBack_of_fuel fun _ _ _ _ _ => rfl
  | bool b => cases b <;> exact readBack_of_fuel fun _ _ _ _ _ => rfl
  | int n =>
    refine readBack_of_fuel fun _ fuel rest _ hr => ?_
    rw [write, Json.write, ← Spelling.text_ofInt]
    exact value_spelling (Spelling.valid_ofInt n) hr fuel
  | float x =>
    refine readBack_of_fuel fun _ fuel rest _ hr => ?_
    rw [write, Json.write]
    exact value_floatText x hr fuel
  | str s =>
    refine readBack_of_fuel fun _ fuel rest _ _ => ?_
    show (string (s.toList.flatMap escaped ++ '"' :: rest)).bind
      (fun r => some (Document.leaf (r.1.map Json.str), r.2)) = _
    rw [string_written]
    rfl
  | arr items ih => exact readBack_arr ih
  | obj fields ih => exact readBack_obj ih

/-- A whole text is read whatever blanks it is written with. -/
theorem ofText?_write (sp : Spacing) (v : Json) :
    Document.ofText? (String.ofList (sp.write 0 v [])) = some v.document := by
  refine Document.ofText?_eq ?_
  rw [String.toList_ofList]
  exact sp.readBack v (by omega) (stops_nil goesOn)

end Spacing

/-- Every value that is printed can be read. -/
theorem Document.ofText?_text (v : Json) : Document.ofText? v.text = some v.document := by
  rw [Json.text, ← Spacing.write_compact v 0]
  exact Spacing.compact.ofText?_write v

/-- So can every value that is printed for people. -/
theorem Document.ofText?_pretty (v : Json) : Document.ofText? v.pretty = some v.document := by
  rw [Json.pretty, ← Spacing.write_pretty v 0]
  exact Spacing.pretty.ofText?_write v

end Labeling
