import Mathlib.Algebra.Group.Int.Defs
import Mathlib.Algebra.Group.Nat.Defs
import Labeling.Proofs.Json.Numerals
import Labeling.Text.LeadingInt

/-!
# Integers at the start of a text

An integer is read back from its decimal text, whatever follows, unless that goes on with a digit
(`leadingInt?_toString_append`). The least signed 64-bit integer is the only one of that width that
is not: its magnitude does not fit. Whatever text is read, the integer and its negation fit
(`leadingInt?_bounds`).

`IntegerText` is the grammar of such texts, with every part of the text in its place. It has just the
texts that are read (`leadingInt?_grammar`): a second sign, a sign without digits, digits of other
scripts and too great a magnitude are all ruled out by what it says of the parts.
-/

namespace Labeling

open Reader

/-! ## What is read fits -/

theorem leadingNat?_lt {cs : List Char} {m : Nat} (h : leadingNat? cs = some m) : m < 2 ^ 63 := by
  unfold leadingNat? at h
  split at h
  · cases h
  · split at h
    · rename_i hfits
      cases h
      rw [isInt64_iff] at hfits
      omega
    · cases h

/-- The number at the start of a text lies strictly between the bounds of 64 bits. -/
theorem leadingInt?_bounds {text : String} {n : Int} (h : leadingInt? text = some n) :
    -2 ^ 63 < n ∧ n < 2 ^ 63 := by
  unfold leadingInt? leadingIntOf at h
  split at h <;> obtain ⟨k, hk, rfl⟩ := Option.map_eq_some_iff.1 h <;>
    obtain ⟨m, hm, he⟩ := Option.bind_eq_some_iff.1 hk <;> cases he <;>
    have hlt := leadingNat?_lt hm <;> omega

/-- The number at the start of a text fits 64 bits. -/
theorem isInt64_of_leadingInt? {text : String} {n : Int} (h : leadingInt? text = some n) :
    isInt64 n = true := by
  have hbounds := leadingInt?_bounds h
  rw [isInt64_iff]
  omega

/-! ## What is written is read back -/

theorem isBlank_of_isDigit {c : Char} (h : c.isDigit = true) : isBlank c = false := by
  have hrange : 48 ≤ c.toNat ∧ c.toNat ≤ 57 := by
    simp only [Char.isDigit, Bool.and_eq_true, decide_eq_true_eq, ge_iff_le,
      UInt32.le_iff_toNat_le] at h
    exact h
  simp only [isBlank, blankRanges, List.any_cons, List.any_nil, Bool.or_false, Bool.or_eq_false_iff,
    Bool.and_eq_false_iff, decide_eq_false_iff_not]
  omega

/-- Digits are read up to the first character that is none. -/
theorem leadingNat?_append {ds rest : List Char} (hne : ds ≠ [])
    (hd : ∀ c ∈ ds, c.isDigit = true) (hr : Stops Char.isDigit rest) :
    leadingNat? (ds ++ rest) =
      if isInt64 (digitsValue ds) then some (digitsValue ds) else none := by
  have htake : (ds ++ rest).takeWhile Char.isDigit = ds := by
    rw [List.takeWhile_append_of_pos hd]
    cases rest with
    | nil => exact List.append_nil ds
    | cons c rest =>
      rw [List.takeWhile_cons_of_neg (by simp [hr c rfl]), List.append_nil]
  unfold leadingNat?
  rw [htake]
  split
  · exact absurd rfl hne
  · rfl

theorem leadingNat?_toDigits {m : Nat} (hm : m < 2 ^ 63) {rest : List Char}
    (hr : Stops Char.isDigit rest) : leadingNat? (Nat.toDigits 10 m ++ rest) = some m := by
  have hvalue : digitsValue (Nat.toDigits 10 m) = m := Nat.ofDigitChars_ten_toDigits
  have hfits : isInt64 m = true := by
    rw [isInt64_iff]
    omega
  rw [leadingNat?_append Nat.toDigits_ne_nil Spelling.isDigit_of_mem_toDigits hr, hvalue,
    if_pos hfits]

theorem leadingIntOf_minus (cs : List Char) :
    leadingIntOf ('-' :: cs) = (leadingNat? cs).map fun m => -Int.ofNat m := by
  show (leadingNat? cs >>= fun m => pure (m : Int)).map (fun n => -n) = _
  cases leadingNat? cs <;> rfl

/-- Behind a digit there is neither a blank nor a sign to be skipped. -/
theorem leadingIntOf_digits {ds rest : List Char} (hne : ds ≠ [])
    (hd : ∀ c ∈ ds, c.isDigit = true) :
    leadingIntOf (ds ++ rest) = (leadingNat? (ds ++ rest)).map Int.ofNat := by
  obtain ⟨d, ds, rfl⟩ := List.exists_cons_of_ne_nil hne
  have hdigit : d.isDigit = true := hd d (List.mem_cons_self ..)
  unfold leadingIntOf
  rw [List.cons_append, List.dropWhile_cons_of_neg (by simp [isBlank_of_isDigit hdigit])]
  split
  · rename_i heq
    cases heq
    cases hdigit
  · rename_i heq
    cases heq
    cases hdigit
  · cases leadingNat? (d :: (ds ++ rest)) <;> rfl

/-- An integer is read back from its text, whatever follows it, if that does not begin with a
digit. -/
theorem leadingInt?_toString_append {n : Int} (hlow : -2 ^ 63 < n) (hhigh : n < 2 ^ 63)
    {rest : String} (hr : Stops Char.isDigit rest.toList) :
    leadingInt? (toString n ++ rest) = some n := by
  have hread := leadingNat?_toDigits (m := n.natAbs) (by omega) hr
  unfold leadingInt?
  rw [String.toList_append, ← Spelling.text_ofInt]
  simp only [Spelling.text, Spelling.ofInt, Spelling.fractionText, Spelling.exponentText,
    List.append_nil, decide_eq_true_eq]
  split
  · rename_i hneg
    rw [List.singleton_append, List.cons_append, leadingIntOf_minus, hread, Option.map_some,
      Int.ofNat_eq_natCast, show -(n.natAbs : Int) = n by omega]
  · rename_i hneg
    rw [List.nil_append, leadingIntOf_digits Nat.toDigits_ne_nil Spelling.isDigit_of_mem_toDigits,
      hread, Option.map_some, Int.ofNat_eq_natCast, show (n.natAbs : Int) = n by omega]

/-- An integer is read back from its text. -/
theorem leadingInt?_toString {n : Int} (hlow : -2 ^ 63 < n) (hhigh : n < 2 ^ 63) :
    leadingInt? (toString n) = some n := by
  have hread : leadingInt? (toString n ++ "") = some n :=
    leadingInt?_toString_append hlow hhigh (stops_nil _)
  rwa [String.append_empty] at hread

/-! ## The grammar -/

/-- A text that begins with an integer, in its parts: all of its leading blanks, one sign or none,
digits of a number that fits 63 bits, and a rest that does not go on with a digit. -/
structure IntegerText (text blanks sign digits rest : List Char) : Prop where
  text_eq : text = blanks ++ (sign ++ (digits ++ rest))
  all_blank : ∀ c ∈ blanks, isBlank c = true
  /-- No blank is left over. -/
  no_blank : Stops isBlank (sign ++ (digits ++ rest))
  one_sign : sign = [] ∨ sign = ['+'] ∨ sign = ['-']
  digits_ne_nil : digits ≠ []
  all_digits : ∀ c ∈ digits, c.isDigit = true
  /-- No digit is left over. -/
  no_digit : Stops Char.isDigit rest
  fits : Nat.ofDigitChars 10 digits 0 ≤ 2 ^ 63 - 1

/-- The integer of a sign and digits. -/
def signedValue (sign digits : List Char) : Int :=
  if sign = ['-'] then -(Nat.ofDigitChars 10 digits 0 : Int) else Nat.ofDigitChars 10 digits 0

theorem stops_dropWhile (p : Char → Bool) (cs : List Char) : Stops p (cs.dropWhile p) := by
  induction cs with
  | nil => exact stops_nil p
  | cons c cs ih =>
    cases hc : p c with
    | true => rwa [List.dropWhile_cons_of_pos hc]
    | false =>
      rw [List.dropWhile_cons_of_neg (by simp [hc])]
      exact stops_cons cs hc

/-- A magnitude is read of the digits at the start. -/
theorem exists_digits_of_leadingNat? {cs : List Char} {m : Nat} (h : leadingNat? cs = some m) :
    ∃ digits rest, cs = digits ++ rest ∧ digits ≠ [] ∧ (∀ c ∈ digits, c.isDigit = true) ∧
      Stops Char.isDigit rest ∧ Nat.ofDigitChars 10 digits 0 = m := by
  refine ⟨cs.takeWhile Char.isDigit, cs.dropWhile Char.isDigit,
    List.takeWhile_append_dropWhile.symm, ?_, fun c hc => ?_, stops_dropWhile _ cs, ?_⟩
  · intro hnil
    unfold leadingNat? at h
    rw [hnil] at h
    cases h
  · exact List.all_eq_true.1 List.all_takeWhile c hc
  · unfold leadingNat? at h
    split at h
    · cases h
    · split at h
      · exact Option.some.inj h
      · cases h

theorem leadingIntOf_plus (cs : List Char) :
    leadingIntOf ('+' :: cs) = (leadingNat? cs).map Int.ofNat := by
  show (leadingNat? cs >>= fun m => pure (m : Int)).map (fun n => n) = _
  cases leadingNat? cs <;> rfl

theorem leadingIntOf_blanks {blanks : List Char} (hb : ∀ c ∈ blanks, isBlank c = true)
    (cs : List Char) : leadingIntOf (blanks ++ cs) = leadingIntOf cs := by
  unfold leadingIntOf
  rw [List.dropWhile_append_of_pos hb]

/-- A text of the grammar is read. -/
theorem IntegerText.leadingIntOf_eq {text blanks sign digits rest : List Char}
    (h : IntegerText text blanks sign digits rest) :
    leadingIntOf text = some (signedValue sign digits) := by
  have hread : leadingNat? (digits ++ rest) = some (Nat.ofDigitChars 10 digits 0) := by
    have hfits : isInt64 (digitsValue digits) = true := by
      have hle : digitsValue digits ≤ 2 ^ 63 - 1 := h.fits
      rw [isInt64_iff]
      omega
    rw [leadingNat?_append h.digits_ne_nil h.all_digits h.no_digit, if_pos hfits]
    rfl
  rw [h.text_eq, leadingIntOf_blanks h.all_blank]
  rcases h.one_sign with rfl | rfl | rfl
  · rw [List.nil_append, leadingIntOf_digits h.digits_ne_nil h.all_digits, hread]
    rfl
  · rw [List.singleton_append, leadingIntOf_plus, hread]
    rfl
  · rw [List.singleton_append, leadingIntOf_minus, hread]
    rfl

/-- What is read is a text of the grammar. -/
theorem exists_integerText {text : List Char} {v : Int} (h : leadingIntOf text = some v) :
    ∃ blanks sign digits rest,
      IntegerText text blanks sign digits rest ∧ v = signedValue sign digits := by
  -- the parts are the same whatever the sign is
  have hparts (sign : List Char) {cs : List Char} {m : Int}
      (hsign : sign = [] ∨ sign = ['+'] ∨ sign = ['-'])
      (hcs : text.dropWhile isBlank = sign ++ cs)
      (hm : (do return ((← leadingNat? cs) : Int)) = some m) :
      ∃ digits rest, IntegerText text (text.takeWhile isBlank) sign digits rest ∧
        (Nat.ofDigitChars 10 digits 0 : Int) = m := by
    obtain ⟨k, hk, he⟩ := Option.bind_eq_some_iff.1 hm
    obtain ⟨digits, rest, rfl, hne, hdigits, hrest, hvalue⟩ := exists_digits_of_leadingNat? hk
    refine ⟨digits, rest, ⟨?_, fun c hc => List.all_eq_true.1 List.all_takeWhile c hc, ?_, hsign,
      hne, hdigits, hrest, ?_⟩, ?_⟩
    · rw [← hcs, List.takeWhile_append_dropWhile]
    · rw [← hcs]
      exact stops_dropWhile isBlank text
    · have hlt := leadingNat?_lt hk
      omega
    · rw [hvalue]
      exact Option.some.inj he
  unfold leadingIntOf at h
  split at h
  case h_1 cs hcs =>
    obtain ⟨m, hm, rfl⟩ := Option.map_eq_some_iff.1 h
    obtain ⟨digits, rest, ht, rfl⟩ := hparts ['-'] (.inr (.inr rfl)) hcs hm
    exact ⟨_, _, digits, rest, ht, rfl⟩
  case h_2 cs hcs =>
    obtain ⟨m, hm, rfl⟩ := Option.map_eq_some_iff.1 h
    obtain ⟨digits, rest, ht, rfl⟩ := hparts ['+'] (.inr (.inl rfl)) hcs hm
    exact ⟨_, _, digits, rest, ht, rfl⟩
  case h_3 =>
    obtain ⟨m, hm, rfl⟩ := Option.map_eq_some_iff.1 h
    obtain ⟨digits, rest, ht, rfl⟩ := hparts [] (.inl rfl) rfl hm
    exact ⟨_, _, digits, rest, ht, rfl⟩

/-- Just the texts of the grammar are read, each as its integer. So an integer of 64 bits is read
back from its text, whatever follows, if it is not the least one, and the negation of a magnitude
that was read always fits. -/
theorem leadingInt?_grammar :
    (∀ (text : String) (v : Int), leadingInt? text = some v ↔
      ∃ blanks sign digits rest, IntegerText text.toList blanks sign digits rest ∧
        v = signedValue sign digits) ∧
    (∀ (v : Int) (rest : String), isInt64 v = true → -2 ^ 63 < v →
      Stops Char.isDigit rest.toList → leadingInt? (toString v ++ rest) = some v) ∧
    ∀ (cs : List Char) (m : Nat), leadingNat? cs = some m → isInt64 (-(m : Int)) = true := by
  refine ⟨fun text v => ⟨exists_integerText, ?_⟩, fun v rest hv hlow hrest => ?_, fun cs m hm => ?_⟩
  · rintro ⟨blanks, sign, digits, rest, ht, rfl⟩
    exact ht.leadingIntOf_eq
  · rw [isInt64_iff] at hv
    exact leadingInt?_toString_append hlow (by omega) hrest
  · have hlt := leadingNat?_lt hm
    rw [isInt64_iff]
    omega

/-- A wide blank, a sign, leading zeros and letters after the digits; the greatest magnitude with a
digit of another script after it; and digits that are all of the text. -/
theorem leadingInt?_grammar_assorted :
    IntegerText ['\u3000', '-', '0', '7', 'é', '1'] ['\u3000'] ['-'] ['0', '7'] ['é', '1'] ∧
      leadingInt? "\u3000-07é1" = some (-7) ∧
    (isInt64 (-9223372036854775807) = true ∧ (-2 : Int) ^ 63 < -9223372036854775807 ∧
      Stops Char.isDigit "٣".toList ∧
      leadingInt? (toString (-9223372036854775807 : Int) ++ "٣") = some (-9223372036854775807)) ∧
    leadingNat? ['4', '2'] = some 42 ∧ isInt64 (-((42 : Nat) : Int)) = true := by
  have ht : IntegerText ['\u3000', '-', '0', '7', 'é', '1'] ['\u3000'] ['-'] ['0', '7']
      ['é', '1'] :=
    { text_eq := rfl
      all_blank := List.all_eq_true.mp (by decide)
      no_blank := stops_cons _ (by decide)
      one_sign := .inr (.inr rfl)
      digits_ne_nil := by decide
      all_digits := List.all_eq_true.mp (by decide)
      no_digit := stops_cons _ (by decide)
      fits := by decide }
  have hrest : Stops Char.isDigit "٣".toList := stops_cons [] (by decide)
  exact ⟨ht, (leadingInt?_grammar.1 "\u3000-07é1" (-7)).2 ⟨_, _, _, _, ht, rfl⟩,
    ⟨by decide, by decide, hrest, leadingInt?_grammar.2.1 _ _ (by decide) (by decide) hrest⟩,
    by decide, leadingInt?_grammar.2.2 ['4', '2'] 42 (by decide)⟩

end Labeling
