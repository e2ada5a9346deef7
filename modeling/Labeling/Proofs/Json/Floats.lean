import Labeling.Json.Printer
import Labeling.Proofs.Decimal.Shortest
import Labeling.Proofs.Json.Numerals

/-!
# Floating-point numbers are written as numerals

Whatever a floating-point number is, its text can be read: it is `null`, or the spelling of a number
(`Json.floatText_cases`). Which number the reader makes of it is another matter, as it does not
round correctly.
-/

namespace Labeling

open Reader (digitValue)

namespace Decimal

theorem digitText_eq (d : Decimal) : d.digitText = Nat.toDigits 10 d.digits := by
  rw [digitText, Nat.toString_eq_repr, Nat.toList_repr]

/-- The digits before the point, of which the first counts. -/
theorem leading_cons {c : Char} (hc : digitValue c ≠ 0) (cs : List Char) (d : Nat)
    (rest : List Nat) : (c :: cs).map digitValue ≠ 0 :: d :: rest :=
  fun h => hc (List.cons.inj h).1

theorem isDigit_replicate_zero (n : Nat) : ∀ c ∈ List.replicate n '0', c.isDigit = true := by
  intro c hc
  rw [List.eq_of_mem_replicate hc]
  rfl

variable {d : Decimal}

/-- A positional numeral: the point stands behind the digits, between them or before them. -/
theorem spelled_positional (h : 0 < d.digits) :
    ∃ s : Spelling, s.Valid ∧ s.negative = false ∧
      (d.positional Json.numberLayout).toList = s.text := by
  obtain ⟨c, cs, hdigits, hc⟩ := Spelling.toDigits_eq_cons h
  have hdigit : ∀ e ∈ c :: cs, e.isDigit = true :=
    hdigits ▸ Spelling.isDigit_of_mem_toDigits
  have hleading : d.leading = d.exponent + cs.length := by
    rw [leading, digitText_eq, hdigits, List.length_cons]
    omega
  unfold positional
  rw [digitText_eq, hdigits]
  dsimp only
  split
  · -- zeros fill the gap between the digits and the point
    refine ⟨⟨false, c :: cs ++ List.replicate d.exponent.toNat '0', ['0'], none⟩,
      ⟨fun e he => ?_, List.cons_ne_nil _ _, leading_cons hc _, ?_, fun _ _ h => by cases h⟩,
      rfl, ?_⟩
    · rcases List.mem_append.1 he with he | he
      · exact hdigit e he
      · exact isDigit_replicate_zero _ e he
    · exact isDigit_replicate_zero 1
    · simp [Spelling.text, Spelling.fractionText, Spelling.exponentText, Json.numberLayout]
  · split
    · -- the point stands between two digits
      rename_i hneg hpos
      obtain ⟨n, hn⟩ : ∃ n, (d.leading + 1).toNat = n + 1 := ⟨d.leading.toNat, by omega⟩
      obtain ⟨f, fs, hf⟩ : ∃ f fs, cs.drop n = f :: fs :=
        List.exists_cons_of_ne_nil (by
          rw [Ne, List.drop_eq_nil_iff]
          omega)
      rw [hn, List.take_succ_cons, List.drop_succ_cons, hf]
      refine ⟨⟨false, c :: cs.take n, f :: fs, none⟩,
        ⟨fun e he => ?_, List.cons_ne_nil _ _, leading_cons hc _, fun e he => ?_,
          fun _ _ h => by cases h⟩, rfl, ?_⟩
      · rcases List.mem_cons.1 he with rfl | he
        · exact hdigit e (List.mem_cons_self ..)
        · exact hdigit e (List.mem_cons_of_mem _ (List.mem_of_mem_take he))
      · exact hdigit e (List.mem_cons_of_mem _ (List.mem_of_mem_drop (hf ▸ he)))
      · simp [Spelling.text, Spelling.fractionText, Spelling.exponentText]
    · -- zeros stand between the point and the digits
      refine ⟨⟨false, ['0'], List.replicate (-d.leading - 1).toNat '0' ++ c :: cs, none⟩,
        ⟨isDigit_replicate_zero 1, List.cons_ne_nil _ _, fun _ _ h => ?_, fun e he => ?_,
          fun _ _ h => by cases h⟩, rfl, ?_⟩
      · cases h
      · rcases List.mem_append.1 he with he | he
        · exact isDigit_replicate_zero _ e he
        · exact hdigit e he
      · cases (-d.leading - 1).toNat <;>
          simp [Spelling.text, Spelling.fractionText, Spelling.exponentText, List.replicate_succ]

/-- An exponent is written with its sign. -/
theorem exponentText_eq (n : Int) :
    ("e" ++ (if 0 ≤ n then Json.numberLayout.plus else "") ++ toString n).toList =
      Spelling.exponentText (some (n < 0, Nat.toDigits 10 n.natAbs)) := by
  rw [String.toList_append, String.toList_append, ← Spelling.text_ofInt]
  by_cases hn : 0 ≤ n
  · simp [Spelling.text, Spelling.ofInt, Spelling.fractionText, Spelling.exponentText, hn,
      Json.numberLayout]
  · simp [Spelling.text, Spelling.ofInt, Spelling.fractionText, Spelling.exponentText,
      Int.not_le.1 hn, hn]

/-- A scientific numeral: one digit stands before the point, and the exponent has its sign. -/
theorem spelled_scientific (h : 0 < d.digits) :
    ∃ s : Spelling, s.Valid ∧ s.negative = false ∧
      (d.scientific Json.numberLayout).toList = s.text := by
  obtain ⟨c, cs, hdigits, hc⟩ := Spelling.toDigits_eq_cons h
  have hdigit : ∀ e ∈ c :: cs, e.isDigit = true :=
    hdigits ▸ Spelling.isDigit_of_mem_toDigits
  refine ⟨⟨false, [c], cs, some (d.leading < 0, Nat.toDigits 10 d.leading.natAbs)⟩,
    ⟨fun e he => ?_, List.cons_ne_nil _ _, leading_cons hc _, fun e he => ?_, ?_⟩, rfl, ?_⟩
  · exact hdigit e (List.mem_singleton.1 he ▸ List.mem_cons_self ..)
  · exact hdigit e (List.mem_cons_of_mem _ he)
  · rintro negative ds he
    cases he
    exact ⟨Nat.toDigits_ne_nil, Spelling.isDigit_of_mem_toDigits⟩
  · unfold scientific
    have hassoc (s m : String) : s ++ "e" ++ m ++ toString d.leading =
        s ++ ("e" ++ m ++ toString d.leading) := by
      simp only [String.append_assoc]
    rw [digitText_eq, hdigits, hassoc, String.toList_append, exponentText_eq]
    cases cs <;> simp [Spelling.text, Spelling.fractionText]

/-- A decimal that is not zero is written as a numeral. -/
theorem spelled_write (h : 0 < d.digits) :
    ∃ s : Spelling, s.Valid ∧ s.negative = false ∧ (d.write Json.numberLayout).toList = s.text := by
  unfold write
  split
  · exact spelled_positional h
  · exact spelled_scientific h

end Decimal

/-- A floating-point number is written as `null`, or as a numeral. -/
theorem Json.floatText_cases (x : Float) :
    Json.floatText x = "null" ∨
      ∃ s : Spelling, s.Valid ∧ (Json.floatText x).toList = s.text := by
  unfold Json.floatText
  split
  · exact Or.inl rfl
  · refine Or.inr ?_
    obtain ⟨s, hs, hunsigned, htext⟩ : ∃ s : Spelling, s.Valid ∧ s.negative = false ∧
        (if (Binary.ofBits x.toBits).significand = 0 then "0.0"
          else (Binary.ofBits x.toBits).shortest.write Json.numberLayout).toList = s.text := by
      split
      · refine ⟨⟨false, ['0'], ['0'], none⟩, ⟨?_, List.cons_ne_nil _ _, fun _ _ h => ?_,
          ?_, fun _ _ h => ?_⟩, rfl, rfl⟩
        · exact Decimal.isDigit_replicate_zero 1
        · cases h
        · exact Decimal.isDigit_replicate_zero 1
        · cases h
      · rename_i hne
        obtain ⟨hfits, hleast, hgreatest⟩ := Binary.ofBits_bounds x.toBits
        exact Decimal.spelled_write
          (Binary.shortest_digits_pos (Nat.pos_of_ne_zero hne) hfits hleast hgreatest)
    refine ⟨{ s with negative := Nat.pow 2 63 ≤ x.toBits.toNat },
      ⟨hs.whole, hs.whole_ne_nil, hs.leading, hs.fraction, hs.exponent⟩, ?_⟩
    rw [String.toList_append, htext]
    unfold Spelling.text
    rw [hunsigned]
    by_cases hsign : Nat.pow 2 63 ≤ x.toBits.toNat <;> simp [hsign]

end Labeling
