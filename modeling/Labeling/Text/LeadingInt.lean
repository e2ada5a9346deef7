import Labeling.Json.Value

/-!
# The integer at the start of a text

Text fields for numbers are read generously: blanks in front are skipped, a sign is
allowed, and whatever follows the digits is ignored, so `12abc` is twelve. There is
no integer if no digit stands after the sign, or if the digits spell a number that
does not fit a signed 64-bit integer.

The blanks are the characters with the Unicode property `White_Space`, to which the
zero-width space and the byte order mark do not belong. The digits are the ten plain
ones; digits of other scripts end the number.
-/

namespace Labeling

/-- The code points with the property `White_Space`, as closed ranges. -/
def blankRanges : List (Nat × Nat) :=
  [(0x09, 0x0D), (0x20, 0x20), (0x85, 0x85), (0xA0, 0xA0), (0x1680, 0x1680), (0x2000, 0x200A),
   (0x2028, 0x2029), (0x202F, 0x202F), (0x205F, 0x205F), (0x3000, 0x3000)]

/-- A blank character. -/
def isBlank (c : Char) : Bool :=
  blankRanges.any fun r => r.1 ≤ c.toNat && c.toNat ≤ r.2

/-- The number spelled by plain digits. -/
def digitsValue (digits : List Char) : Nat :=
  digits.foldl (fun n c => 10 * n + (c.toNat - 48)) 0

/-- The magnitude at the start of the characters. -/
def leadingNat? (cs : List Char) : Option Nat :=
  match cs.takeWhile Char.isDigit with
  | [] => none
  | digits => if isInt64 (digitsValue digits) then some (digitsValue digits) else none

/-- The integer at the start of the characters. -/
def leadingIntOf (cs : List Char) : Option Int :=
  match cs.dropWhile isBlank with
  | '-' :: rest => (leadingNat? rest).map fun n => -(n : Int)
  | '+' :: rest => (leadingNat? rest).map fun n => (n : Int)
  | rest => (leadingNat? rest).map fun n => (n : Int)

/-- The integer at the start of a text. -/
def leadingInt? (text : String) : Option Int := leadingIntOf text.toList

end Labeling
