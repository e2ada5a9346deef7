import Labeling.Json.Reader
import Labeling.Json.Printer

/-!
# Strings come back from their text

Every string can be written and is read as it was (`Reader.string_written`). Only the quote, the
backslash and the control characters below the space are written in another form. Those without a
short form of their own are written by their code, which is far below the halves of pairs, so that
the reader takes no two of them for one character.
-/

namespace Labeling

namespace Reader

/-- A piece of a string stands for one character, whatever pieces come after. -/
def Piece.Spells (p : Piece) (c : Char) : Prop :=
  ∀ ps, characters? (p :: ps) = (characters? ps).map (c :: ·)

theorem Piece.spells_char (c : Char) : (Piece.char c).Spells c := by
  intro ps
  rw [characters?]
  cases characters? ps <;> rfl

/-- A code below the halves of pairs stands for its character. -/
theorem Piece.spells_unit {c : Char} (hc : c.toNat < 32) : (Piece.unit c.toNat).Spells c := by
  intro ps
  have hlow : isLowHalf c.toNat = false := by
    simp only [isLowHalf, Bool.and_eq_false_iff, decide_eq_false_iff_not]
    omega
  have hhigh : isHighHalf c.toNat = false := by
    simp only [isHighHalf, Bool.and_eq_false_iff, decide_eq_false_iff_not]
    omega
  rw [characters?.eq_def]
  dsimp only
  rw [hlow, hhigh, Char.ofNat_toNat]
  cases characters? ps <;> rfl

theorem hexValue?_hexDigit : ∀ n : Fin 16, hexValue? (Json.hexDigit n) = some (n : Nat) := by decide

/-- A character that is neither a quote nor a backslash is read as it is, if it may stand there. -/
theorem pieces_cons_of_ne {c : Char} (hquote : c ≠ '"') (hback : c ≠ '\\') (rest : List Char) :
    pieces (c :: rest) = if c.toNat < 32 then none
      else (pieces rest).map fun r => (.char c :: r.1, r.2) := by
  rw [pieces.eq_def]
  split
  · rename_i h
    cases h
  · rename_i h
    exact absurd (List.cons.inj h).1 hquote
  · rename_i h
    exact absurd (List.cons.inj h).1 hback
  · rename_i h
    exact absurd (List.cons.inj h).1 hback
  · rename_i h
    cases h
    cases pieces rest <;> rfl

/-- An escape of one letter is read as the character that it stands for. -/
theorem pieces_escape {e c : Char} (he : escape? e = some c) (rest : List Char) :
    pieces ('\\' :: e :: rest) = (pieces rest).map fun r => (.char c :: r.1, r.2) := by
  rw [pieces.eq_def]
  split
  · rename_i h
    cases h
  · rename_i h
    cases h
  · rename_i h
    cases h
    cases he
  · rename_i h
    cases h
    rw [he]
    cases pieces rest <;> rfl
  · rename_i hother h
    cases h
    exact absurd rfl (hother e rest rfl)

/-- The written form of a character is read as one piece that stands for it. -/
theorem pieces_escaped (c : Char) :
    ∃ p : Piece, p.Spells c ∧ ∀ rest, pieces (Json.escaped c ++ rest) =
      (pieces rest).map fun r => (p :: r.1, r.2) := by
  unfold Json.escaped
  split
  case h_8 hquote hback _ _ _ _ _ =>
    split
    · rename_i hcontrol
      refine ⟨.unit c.toNat, Piece.spells_unit hcontrol, fun rest => ?_⟩
      have hhigh := hexValue?_hexDigit ⟨c.toNat / 16, by omega⟩
      have hlow := hexValue?_hexDigit ⟨c.toNat % 16, by omega⟩
      have hzero : hexValue? '0' = some 0 := by decide
      have hcode : 4096 * 0 + 256 * 0 + 16 * (c.toNat / 16) + c.toNat % 16 = c.toNat := by omega
      simp only [List.cons_append, List.nil_append, pieces, hzero, hhigh, hlow, Option.bind_eq_bind,
        Option.bind_some, hcode]
      cases pieces rest <;> rfl
    · rename_i hplain
      refine ⟨.char c, Piece.spells_char c, fun rest => ?_⟩
      rw [List.singleton_append, pieces_cons_of_ne hquote hback, if_neg hplain]
  -- the seven characters with a short form
  all_goals exact ⟨.char _, Piece.spells_char _, pieces_escape rfl⟩

/-- The written form of some characters is read up to the closing quote. -/
theorem pieces_flatMap_escaped (cs rest : List Char) :
    ∃ ps, characters? ps = some cs ∧
      pieces (cs.flatMap Json.escaped ++ '"' :: rest) = some (ps, rest) := by
  induction cs with
  | nil => exact ⟨[], rfl, rfl⟩
  | cons c cs ih =>
    obtain ⟨ps, hps, hread⟩ := ih
    obtain ⟨p, hp, hpiece⟩ := pieces_escaped c
    refine ⟨p :: ps, by rw [hp, hps]; rfl, ?_⟩
    rw [List.flatMap_cons, List.append_assoc, hpiece, hread]
    rfl

/-- Behind its opening quote a written string is read as it was. -/
theorem string_written (s : String) (rest : List Char) :
    string (s.toList.flatMap Json.escaped ++ '"' :: rest) = some (some s, rest) := by
  obtain ⟨ps, hps, hread⟩ := pieces_flatMap_escaped s.toList rest
  unfold string
  rw [hread]
  show some ((characters? ps).map String.ofList, rest) = _
  rw [hps, Option.map_some, String.ofList_toList]

end Reader

end Labeling
