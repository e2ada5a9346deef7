import Labeling.Json.Value
import Labeling.Decimal.Layout

/-!
# Writing JSON text

Two forms: the compact one without any blanks (`Json.text`), and the one for people,
with one item or field a line and two spaces a level (`Json.pretty`). Every function
writes in front of the characters that come after.

Strings are written as they are, but for the quote, the backslash and the control
characters below the space. A floating-point number is the shortest decimal that
reads back, and a number that is not finite is `null`.
-/

namespace Labeling

namespace Json

/-- A number is positional when its first digit stands between the fifth place after
the point and the sixteenth before it, always has a point, and otherwise has an
exponent with its sign. -/
def numberLayout : DecimalLayout := ⟨-5, 15, ".0", "+"⟩

/-- The text of a floating-point number. -/
def floatText (x : Float) : String :=
  if x.isNaN || x.isInf then "null"
  else
    let binary := Binary.ofBits x.toBits
    let sign := if Nat.pow 2 63 ≤ x.toBits.toNat then "-" else ""
    sign ++ if binary.significand = 0 then "0.0" else binary.shortest.write numberLayout

/-! ## Strings -/

/-- A hexadecimal digit, in lower case. -/
def hexDigit (n : Nat) : Char := if n < 10 then Char.ofNat (48 + n) else Char.ofNat (87 + n)

/-- The written form of one character of a string. -/
def escaped (c : Char) : List Char :=
  match c with
  | '"' => ['\\', '"']
  | '\\' => ['\\', '\\']
  | '\x08' => ['\\', 'b']
  | '\x0c' => ['\\', 'f']
  | '\n' => ['\\', 'n']
  | '\r' => ['\\', 'r']
  | '\t' => ['\\', 't']
  | c =>
    if c.toNat < 32 then ['\\', 'u', '0', '0', hexDigit (c.toNat / 16), hexDigit (c.toNat % 16)]
    else [c]

/-- A string with its quotes. -/
def writeString (s : String) (rest : List Char) : List Char :=
  '"' :: s.toList.flatMap escaped ++ '"' :: rest

/-! ## The compact form -/

mutual

/-- Write a value in the compact form. -/
def write : Json → List Char → List Char
  | .null, rest => "null".toList ++ rest
  | .bool true, rest => "true".toList ++ rest
  | .bool false, rest => "false".toList ++ rest
  | .int n, rest => (toString n).toList ++ rest
  | .float x, rest => (floatText x).toList ++ rest
  | .str s, rest => writeString s rest
  | .arr [], rest => '[' :: ']' :: rest
  | .arr (v :: vs), rest => '[' :: write v (writeItems vs (']' :: rest))
  | .obj [], rest => '{' :: '}' :: rest
  | .obj ((n, v) :: fs), rest =>
    '{' :: writeString n (':' :: write v (writeFields fs ('}' :: rest)))

/-- Write the items after the first one. -/
def writeItems : List Json → List Char → List Char
  | [], rest => rest
  | v :: vs, rest => ',' :: write v (writeItems vs rest)

/-- Write the fields after the first one. -/
def writeFields : List (String × Json) → List Char → List Char
  | [], rest => rest
  | (n, v) :: fs, rest => ',' :: writeString n (':' :: write v (writeFields fs rest))

end

/-- The compact text of a value. -/
def text (v : Json) : String := String.ofList (v.write [])

/-! ## The form for people -/

/-- A new line and the blanks of a level. -/
def newLine (level : Nat) (rest : List Char) : List Char :=
  '\n' :: List.replicate (2 * level) ' ' ++ rest

mutual

/-- Write a value that stands at a level. -/
def writePretty (level : Nat) : Json → List Char → List Char
  | .arr [], rest => '[' :: ']' :: rest
  | .arr (v :: vs), rest =>
    '[' :: newLine (level + 1) (writePretty (level + 1) v
      (writePrettyItems (level + 1) vs (newLine level (']' :: rest))))
  | .obj [], rest => '{' :: '}' :: rest
  | .obj ((n, v) :: fs), rest =>
    '{' :: newLine (level + 1) (writeString n (':' :: ' ' :: writePretty (level + 1) v
      (writePrettyFields (level + 1) fs (newLine level ('}' :: rest)))))
  | .null, rest => write .null rest
  | .bool b, rest => write (.bool b) rest
  | .int n, rest => write (.int n) rest
  | .float x, rest => write (.float x) rest
  | .str s, rest => write (.str s) rest

/-- Write the items after the first one. -/
def writePrettyItems (level : Nat) : List Json → List Char → List Char
  | [], rest => rest
  | v :: vs, rest =>
    ',' :: newLine level (writePretty level v (writePrettyItems level vs rest))

/-- Write the fields after the first one. -/
def writePrettyFields (level : Nat) : List (String × Json) → List Char → List Char
  | [], rest => rest
  | (n, v) :: fs, rest =>
    ',' :: newLine level (writeString n (':' :: ' ' :: writePretty level v
      (writePrettyFields level fs rest)))

end

/-- The text of a value for people. -/
def pretty (v : Json) : String := String.ofList (v.writePretty 0 [])

end Json

end Labeling
