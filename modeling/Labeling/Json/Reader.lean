import Labeling.Json.Document
import Labeling.Json.Numeral

/-!
# Reading JSON text

The grammar is that of RFC 8259 and nothing more: four blank characters, no comma
before a closing bracket, no leading zeros, no control characters inside strings.
Every function takes the characters that are left and returns what it read and the
characters after it.

* `Document.ofText?` reads a whole text, with blanks around it;
* `Json.ofText?` reads the value of a text whose arrays and objects nest at most
  `Json.depthLimit` deep;
* `Json.ofBytes?` reads the value of a text given as UTF-8.
-/

namespace Labeling

namespace Reader

/-! ## Blanks, names and numbers -/

/-- The four blank characters between tokens. -/
def isBlank (c : Char) : Bool := c == ' ' || c == '\n' || c == '\t' || c == '\r'

/-- The text without the blanks at its start. -/
def skipBlank (cs : List Char) : List Char := cs.dropWhile isBlank

/-- The value of a decimal digit. -/
def digitValue (c : Char) : Nat := c.toNat - 48

/-- The digits at the start of a text, and the rest. -/
def digits (cs : List Char) : List Nat × List Char :=
  ((cs.takeWhile Char.isDigit).map digitValue, cs.dropWhile Char.isDigit)

/-- The digits after a point; there must be at least one. -/
def fraction : List Char → Option (List Nat × List Char)
  | '.' :: cs =>
    match digits cs with
    | ([], _) => none
    | (ds, rest) => some (ds, rest)
  | cs => some ([], cs)

/-- An exponent with its sign; there must be at least one digit. -/
def exponent : List Char → Option (Option (Bool × List Nat) × List Char)
  | c :: cs =>
    if c == 'e' || c == 'E' then
      let (negative, cs) := match cs with
        | '-' :: cs => (true, cs)
        | '+' :: cs => (false, cs)
        | cs => (false, cs)
      match digits cs with
      | ([], _) => none
      | (ds, rest) => some (some (negative, ds), rest)
    else some (none, c :: cs)
  | [] => some (none, [])

/-- A numeral. A zero at the start is the only digit before the point. -/
def numeral (cs : List Char) : Option (Numeral × List Char) := do
  let (negative, cs) := match cs with
    | '-' :: cs => (true, cs)
    | cs => (false, cs)
  let (whole, cs) ← match digits cs with
    | ([], _) => none
    | (0 :: _ :: _, _) => none
    | (ds, rest) => some (ds, rest)
  let (fraction, cs) ← fraction cs
  let (exponent, cs) ← exponent cs
  return (⟨negative, whole, fraction, exponent⟩, cs)

/-! ## Strings -/

/-- A piece of a string: a character, or a 16-bit unit given by its code. -/
inductive Piece where
  | char (c : Char)
  | unit (n : Nat)

/-- The value of a hexadecimal digit. -/
def hexValue? (c : Char) : Option Nat :=
  if c.isDigit then some (c.toNat - 48)
  else if 'a' ≤ c ∧ c ≤ 'f' then some (c.toNat - 87)
  else if 'A' ≤ c ∧ c ≤ 'F' then some (c.toNat - 55)
  else none

/-- The character that an escape of one letter stands for. -/
def escape? : Char → Option Char
  | '"' => some '"'
  | '\\' => some '\\'
  | '/' => some '/'
  | 'b' => some '\x08'
  | 'f' => some '\x0c'
  | 'n' => some '\n'
  | 'r' => some '\r'
  | 't' => some '\t'
  | _ => none

/-- The pieces of a string up to its closing quote. -/
def pieces : List Char → Option (List Piece × List Char)
  | [] => none
  | '"' :: rest => some ([], rest)
  | '\\' :: 'u' :: a :: b :: c :: d :: rest => do
    let n := 4096 * (← hexValue? a) + 256 * (← hexValue? b) + 16 * (← hexValue? c) + (← hexValue? d)
    let (ps, rest) ← pieces rest
    return (.unit n :: ps, rest)
  | '\\' :: e :: rest => do
    let c ← escape? e
    let (ps, rest) ← pieces rest
    return (.char c :: ps, rest)
  | c :: rest =>
    if c.toNat < 32 then none
    else do
      let (ps, rest) ← pieces rest
      return (.char c :: ps, rest)

/-- The first half of a surrogate pair. -/
def isHighHalf (n : Nat) : Bool := 0xD800 ≤ n && n < 0xDC00

/-- The second half of a surrogate pair. -/
def isLowHalf (n : Nat) : Bool := 0xDC00 ≤ n && n < 0xE000

/-- The characters that the pieces spell. Two halves of a pair are one character, and
a half alone spells nothing. -/
def characters? : List Piece → Option (List Char)
  | [] => some []
  | .char c :: rest => do return c :: (← characters? rest)
  | .unit n :: rest =>
    if isLowHalf n then none
    else if isHighHalf n then
      match rest with
      | .unit m :: rest =>
        if isLowHalf m then do
          return Char.ofNat (0x10000 + 0x400 * (n - 0xD800) + (m - 0xDC00)) :: (← characters? rest)
        else none
      | _ => none
    else do return Char.ofNat n :: (← characters? rest)

/-- A string after its opening quote: its text, if it has one. -/
def string (cs : List Char) : Option (Option String × List Char) := do
  let (ps, rest) ← pieces cs
  return ((characters? ps).map String.ofList, rest)

/-! ## Values -/

mutual

/-- A value. The fuel bounds the number of calls inside each other. -/
def value : Nat → List Char → Option (Document × List Char)
  | 0, _ => none
  | fuel + 1, cs =>
    match skipBlank cs with
    | 'n' :: 'u' :: 'l' :: 'l' :: rest => some (.leaf (some .null), rest)
    | 't' :: 'r' :: 'u' :: 'e' :: rest => some (.leaf (some (.bool true)), rest)
    | 'f' :: 'a' :: 'l' :: 's' :: 'e' :: rest => some (.leaf (some (.bool false)), rest)
    | '"' :: rest => do
      let (s, rest) ← string rest
      return (.leaf (s.map .str), rest)
    | '[' :: rest =>
      match skipBlank rest with
      | ']' :: rest => some (.arr [], rest)
      | rest => do
        let (ds, rest) ← items fuel rest
        return (.arr ds, rest)
    | '{' :: rest =>
      match skipBlank rest with
      | '}' :: rest => some (.obj [], rest)
      | rest => do
        let (fs, rest) ← members fuel rest
        return (.obj fs, rest)
    | cs => do
      let (n, rest) ← numeral cs
      return (.leaf n.value?, rest)

/-- The items of an array up to its closing bracket. -/
def items : Nat → List Char → Option (List Document × List Char)
  | 0, _ => none
  | fuel + 1, cs => do
    let (d, rest) ← value fuel cs
    match skipBlank rest with
    | ',' :: rest =>
      let (ds, rest) ← items fuel rest
      return (d :: ds, rest)
    | ']' :: rest => return ([d], rest)
    | _ => none

/-- The fields of an object up to its closing brace. -/
def members : Nat → List Char → Option (List (Option String × Document) × List Char)
  | 0, _ => none
  | fuel + 1, cs =>
    match skipBlank cs with
    | '"' :: rest => do
      let (name, rest) ← string rest
      match skipBlank rest with
      | ':' :: rest =>
        let (d, rest) ← value fuel rest
        match skipBlank rest with
        | ',' :: rest =>
          let (fs, rest) ← members fuel rest
          return ((name, d) :: fs, rest)
        | '}' :: rest => return ([(name, d)], rest)
        | _ => none
      | _ => none
    | _ => none

end

end Reader

/-! ## Whole texts -/

/-- Read a whole text. A call inside another has read at least every second character
of what lies between them, so twice the length of the text is fuel enough. -/
def Document.ofText? (text : String) : Option Document := do
  let cs := text.toList
  let (d, rest) ← Reader.value (2 * cs.length + 2) cs
  if (Reader.skipBlank rest).isEmpty then some d else none

namespace Json

/-- How deep the arrays and objects of a free-form value may nest. -/
def depthLimit : Nat := 127

/-- The value of a JSON text. -/
def ofText? (text : String) : Option Json := do
  let d ← Document.ofText? text
  if d.depth ≤ depthLimit then d.value? else none

/-- The value of a JSON text given as bytes, which must be UTF-8. -/
def ofBytes? (bytes : List UInt8) : Option Json := do
  ofText? (← String.fromUTF8? ⟨bytes.toArray⟩)

end Json

end Labeling
