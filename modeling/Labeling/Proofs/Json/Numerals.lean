import Labeling.Json.Reader

/-!
# Numerals come back from their text

A `Spelling` is a numeral as it is written: its digits are characters, and an exponent has its
sign. If it is one that a number may have (`Spelling.Valid`), the reader takes it as the numeral
that it spells and stops behind it (`Spelling.numeral_text`), whatever comes after, unless that goes
on with a number itself.

Integers that fit 64 bits, signed or unsigned, come back as they were (`Spelling.value?_ofInt`).
-/

namespace Labeling

namespace Reader

/-- A number goes on with this character. -/
def goesOn (c : Char) : Bool := c.isDigit || c == '.' || c == 'e' || c == 'E'

/-- The text does not begin with a character of some sort. -/
def Stops (p : Char → Bool) (rest : List Char) : Prop := ∀ c, rest.head? = some c → p c = false

theorem Stops.mono {p q : Char → Bool} {rest : List Char} (h : Stops p rest)
    (hpq : ∀ c, p c = false → q c = false) : Stops q rest :=
  fun c hc => hpq c (h c hc)

theorem stops_nil (p : Char → Bool) : Stops p [] := fun c hc => by cases hc

theorem stops_cons {p : Char → Bool} {c : Char} (rest : List Char) (h : p c = false) :
    Stops p (c :: rest) := fun d hd => by
  cases hd
  exact h

/-- Some digits are read up to the first character that is none. -/
theorem digits_append {ds rest : List Char} (hd : ∀ c ∈ ds, c.isDigit = true)
    (hr : Stops Char.isDigit rest) : digits (ds ++ rest) = (ds.map digitValue, rest) := by
  have hrest : rest.takeWhile Char.isDigit = [] ∧ rest.dropWhile Char.isDigit = rest := by
    cases rest with
    | nil => exact ⟨rfl, rfl⟩
    | cons c rest =>
      have hc := hr c rfl
      exact ⟨List.takeWhile_cons_of_neg (by simp [hc]), List.dropWhile_cons_of_neg (by simp [hc])⟩
  unfold digits
  rw [List.takeWhile_append_of_pos hd, List.dropWhile_append_of_pos hd, hrest.1, hrest.2,
    List.append_nil]

/-- A numeral behind its sign. -/
def unsigned (negative : Bool) (cs : List Char) : Option (Numeral × List Char) := do
  let (whole, cs) ← match digits cs with
    | ([], _) => none
    | (0 :: _ :: _, _) => none
    | (ds, rest) => some (ds, rest)
  let (fraction, cs) ← fraction cs
  let (exponent, cs) ← exponent cs
  return (⟨negative, whole, fraction, exponent⟩, cs)

/-- A digit is no sign. -/
theorem numeral_of_digit {d : Char} (hd : d.isDigit = true) (cs : List Char) :
    numeral (d :: cs) = unsigned false (d :: cs) := by
  unfold numeral
  split
  rename_i negative cs' hsign
  split at hsign
  · rename_i heq
    cases heq
    cases hd
  · cases hsign
    rfl

end Reader

open Reader

/-! ## Spellings -/

/-- A numeral as it is written. -/
structure Spelling where
  negative : Bool
  whole : List Char
  /-- The digits after the point; there is no point without any. -/
  fraction : List Char
  /-- Whether the exponent is negative, and its digits. -/
  exponent : Option (Bool × List Char)

namespace Spelling

/-- The point and the digits after it. -/
def fractionText : List Char → List Char
  | [] => []
  | d :: ds => '.' :: d :: ds

/-- An exponent with its sign. -/
def exponentText : Option (Bool × List Char) → List Char
  | none => []
  | some (negative, ds) => 'e' :: (if negative then '-' else '+') :: ds

/-- The characters of a spelling. -/
def text (s : Spelling) : List Char :=
  (if s.negative then ['-'] else []) ++
    (s.whole ++ (fractionText s.fraction ++ exponentText s.exponent))

/-- The numeral that is spelled. -/
def numeral (s : Spelling) : Numeral :=
  { negative := s.negative, whole := s.whole.map digitValue, fraction := s.fraction.map digitValue
    exponent := s.exponent.map fun e => (e.1, e.2.map digitValue) }

/-- A number may be spelled like this: digits stand where they must, and a zero at the start is the
only digit before the point. -/
structure Valid (s : Spelling) : Prop where
  whole : ∀ c ∈ s.whole, c.isDigit = true
  whole_ne_nil : s.whole ≠ []
  leading : ∀ d rest, s.whole.map digitValue ≠ 0 :: d :: rest
  fraction : ∀ c ∈ s.fraction, c.isDigit = true
  exponent : ∀ negative ds, s.exponent = some (negative, ds) →
    ds ≠ [] ∧ ∀ c ∈ ds, c.isDigit = true

theorem stops_exponentText {rest : List Char} (e : Option (Bool × List Char))
    (h : Stops goesOn rest) : Stops (fun c => c.isDigit || c == '.') (exponentText e ++ rest) := by
  cases e with
  | none => exact h.mono fun c hc => by simp_all [goesOn]
  | some e => exact stops_cons _ (by decide)

theorem stops_fractionText {rest : List Char} (ds : List Char)
    (h : Stops (fun c => c.isDigit || c == '.') rest) :
    Stops Char.isDigit (fractionText ds ++ rest) := by
  cases ds with
  | nil => exact h.mono fun c hc => by simp_all
  | cons d ds => exact stops_cons _ (by decide)

theorem fraction_fractionText {ds rest : List Char} (hd : ∀ c ∈ ds, c.isDigit = true)
    (hr : Stops (fun c => c.isDigit || c == '.') rest) :
    Reader.fraction (fractionText ds ++ rest) = some (ds.map digitValue, rest) := by
  cases ds with
  | nil =>
    show Reader.fraction rest = some ([], rest)
    unfold Reader.fraction
    split
    · exact absurd (hr '.' rfl) (by decide)
    · rfl
  | cons d ds =>
    show Reader.fraction ('.' :: (d :: ds ++ rest)) = _
    rw [Reader.fraction, digits_append hd (hr.mono fun c hc => by simp_all)]
    rfl

theorem exponent_exponentText {e : Option (Bool × List Char)} {rest : List Char}
    (he : ∀ negative ds, e = some (negative, ds) → ds ≠ [] ∧ ∀ c ∈ ds, c.isDigit = true)
    (hr : Stops goesOn rest) :
    Reader.exponent (exponentText e ++ rest) =
      some (e.map fun e => (e.1, e.2.map digitValue), rest) := by
  cases e with
  | none =>
    show Reader.exponent rest = some (none, rest)
    cases rest with
    | nil => rfl
    | cons c rest =>
      have hc := hr c rfl
      simp only [goesOn, Bool.or_eq_false_iff] at hc
      unfold Reader.exponent
      dsimp only
      rw [hc.1.2, hc.2]
      rfl
  | some e =>
    obtain ⟨negative, ds⟩ := e
    obtain ⟨hne, hd⟩ := he negative ds rfl
    obtain ⟨d, ds, rfl⟩ := List.exists_cons_of_ne_nil hne
    have hdigits : digits (d :: (ds ++ rest)) = ((d :: ds).map digitValue, rest) :=
      digits_append hd (hr.mono fun c hc => by simp_all [goesOn])
    unfold Reader.exponent
    cases negative <;> simp [exponentText, hdigits]

/-- A spelling that a number may have is read as the numeral that it spells. -/
theorem numeral_text {s : Spelling} (h : s.Valid) {rest : List Char} (hr : Stops goesOn rest) :
    Reader.numeral (s.text ++ rest) = some (s.numeral, rest) := by
  have hexponent := stops_exponentText s.exponent hr
  have hwhole := digits_append h.whole (stops_fractionText s.fraction hexponent)
  have hfraction := fraction_fractionText h.fraction hexponent
  have hlast := exponent_exponentText h.exponent hr
  have hunsigned : unsigned s.negative (s.whole ++ (fractionText s.fraction ++
      (exponentText s.exponent ++ rest))) = some (s.numeral, rest) := by
    unfold unsigned
    rw [hwhole]
    split
    · rename_i hnil
      simp [h.whole_ne_nil] at hnil
    · rename_i d ds _ hzero
      exact absurd (congrArg Prod.fst hzero) (h.leading d ds)
    · rename_i ds rest' _ _ heq
      cases heq
      simp [hfraction, hlast, numeral]
  rw [text, List.append_assoc, List.append_assoc, List.append_assoc]
  cases hsign : s.negative with
  | true =>
    rw [hsign] at hunsigned
    exact hunsigned
  | false =>
    obtain ⟨d, ds, hd⟩ := List.exists_cons_of_ne_nil h.whole_ne_nil
    have hdigit : d.isDigit = true := h.whole d (by rw [hd]; exact List.mem_cons_self ..)
    rw [hsign, hd] at hunsigned
    rw [if_neg Bool.false_ne_true, List.nil_append, hd, List.cons_append, numeral_of_digit hdigit]
    exact hunsigned

/-! ## Whole numbers -/

theorem digitValue_digitChar : ∀ d : Fin 10, digitValue (Nat.digitChar d) = d := by decide

/-- Only zero begins with a zero. -/
theorem toDigits_eq_cons {n : Nat} (hn : 0 < n) :
    ∃ c cs, Nat.toDigits 10 n = c :: cs ∧ digitValue c ≠ 0 := by
  induction n using Nat.strongRecOn with
  | ind n ih =>
    by_cases hlt : n < 10
    · refine ⟨_, [], Nat.toDigits_of_lt_base hlt, ?_⟩
      rw [digitValue_digitChar ⟨n, hlt⟩]
      exact Nat.ne_of_gt hn
    · obtain ⟨c, cs, hc, hne⟩ := ih (n / 10) (by omega) (by omega)
      refine ⟨c, cs ++ [Nat.digitChar (n % 10)], ?_, hne⟩
      rw [Nat.toDigits_of_base_le (by decide) (by omega), hc, List.cons_append]

theorem isDigit_of_mem_toDigits {n : Nat} : ∀ c ∈ Nat.toDigits 10 n, c.isDigit = true :=
  fun _ hc => Nat.isDigit_of_mem_toDigits (by decide) (by decide) hc

theorem toDigits_leading (n : Nat) (d : Nat) (rest : List Nat) :
    (Nat.toDigits 10 n).map digitValue ≠ 0 :: d :: rest := by
  rcases Nat.eq_zero_or_pos n with rfl | hn
  · rw [Nat.toDigits_zero]
    intro h
    cases h
  · obtain ⟨c, cs, hc, hne⟩ := toDigits_eq_cons hn
    rw [hc]
    intro h
    exact hne (List.cons.inj h).1

/-- An integer is written with its sign and its digits. -/
def ofInt (n : Int) : Spelling := ⟨n < 0, Nat.toDigits 10 n.natAbs, [], none⟩

theorem valid_ofInt (n : Int) : (ofInt n).Valid where
  whole := isDigit_of_mem_toDigits
  whole_ne_nil := Nat.toDigits_ne_nil
  leading := toDigits_leading _
  fraction := fun c hc => by cases hc
  exponent := fun negative ds h => by cases h

theorem text_ofInt (n : Int) : (ofInt n).text = (toString n).toList := by
  rw [Int.toString_eq_repr, Int.repr_eq_if]
  by_cases hn : 0 ≤ n
  · rw [if_pos hn, Nat.toList_repr, show n.toNat = n.natAbs by omega]
    simp [text, ofInt, fractionText, exponentText, hn]
  · rw [if_neg hn, String.toList_append, Nat.toList_repr, show (-n).toNat = n.natAbs by omega]
    simp [text, ofInt, fractionText, exponentText, Int.not_le.1 hn]

/-- The digits of a number that fits 64 bits are all taken up. -/
theorem absorb_eq {digits : List Nat} : ∀ {n : Nat},
    digits.foldl (fun n d => 10 * n + d) n < Nat.pow 2 64 →
      Numeral.absorb n digits = (digits.foldl (fun n d => 10 * n + d) n, []) := by
  induction digits with
  | nil => exact fun _ => rfl
  | cons d rest ih =>
    intro n h
    rw [List.foldl_cons] at h ⊢
    have hle : 10 * n + d ≤ rest.foldl (fun n d => 10 * n + d) (10 * n + d) := by
      generalize 10 * n + d = m
      clear ih h
      induction rest generalizing m with
      | nil => exact Nat.le_refl _
      | cons d rest ih => exact Nat.le_trans (by omega) (ih (10 * m + d))
    rw [Numeral.absorb, if_pos (Nat.lt_of_le_of_lt hle h), ih h]

theorem foldl_digitValue (cs : List Char) : ∀ n : Nat,
    (cs.map digitValue).foldl (fun n d => 10 * n + d) n = Nat.ofDigitChars 10 cs n := by
  induction cs with
  | nil => exact fun _ => rfl
  | cons c cs ih => exact fun n => ih _

/-- An integer that fits 64 bits, signed or unsigned, comes back as it was. -/
theorem value?_ofInt {n : Int} (h : isInt64 n = true ∨ isUInt64 n = true) :
    (ofInt n).numeral.value? = some (.int n) := by
  simp only [isInt64, isUInt64, Bool.and_eq_true, decide_eq_true_eq] at h
  have hdigits : ((Nat.toDigits 10 n.natAbs).map digitValue).foldl (fun n d => 10 * n + d) 0 =
      n.natAbs := (foldl_digitValue _ 0).trans Nat.ofDigitChars_ten_toDigits
  have habsorb : Numeral.absorb 0 (ofInt n).numeral.whole = (n.natAbs, []) := by
    have hfits : n.natAbs < Nat.pow 2 64 := by
      rw [show Nat.pow 2 64 = 18446744073709551616 from rfl]
      omega
    rw [← hdigits] at hfits
    have hall := absorb_eq hfits
    rw [hdigits] at hall
    exact hall
  have hwhole : ((ofInt n).numeral.fraction.isEmpty && (ofInt n).numeral.exponent.isNone &&
      ([] : List Nat).isEmpty) = true := rfl
  unfold Numeral.value?
  rw [habsorb]
  dsimp only
  rw [if_pos hwhole]
  by_cases hn : n < 0
  · have hsign : (ofInt n).numeral.negative = true := decide_eq_true hn
    have hlow : ¬ ((n.natAbs = 0 || Nat.pow 2 63 < n.natAbs) = true) := by
      rw [Bool.or_eq_true, decide_eq_true_eq, decide_eq_true_eq,
        show Nat.pow 2 63 = 9223372036854775808 from rfl]
      omega
    rw [hsign, if_neg (by decide), if_neg hlow, show -(n.natAbs : Int) = n by omega]
  · have hsign : (ofInt n).numeral.negative = false := decide_eq_false hn
    rw [hsign, if_pos (by decide), show (n.natAbs : Int) = n by omega]

end Spelling

end Labeling
