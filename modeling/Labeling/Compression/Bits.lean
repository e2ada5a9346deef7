/-!
# Bits, bytes and prefix codes

Numbers in files are written in bytes, the most significant one first
(`bigEndian`). Compressed data is a sequence of bits, in which the bits of a byte and
those of a number come with the least significant one first (`Bits`).

A prefix code gives every symbol a sequence of bits of which none begins another one.
It is fixed by the number of symbols for each length: the codes of one length are
consecutive, and those of the next length go on from the next code, doubled. So a code
is read bit by bit without ever writing down the codes (`PrefixCode.read?`).
-/

namespace Labeling

/-! ## Bits and bytes -/

/-- A number whose bytes come with the most significant one first. -/
def bigEndian (bytes : List UInt8) : Nat := bytes.foldl (fun n b => 256 * n + b.toNat) 0

/-- Bits that are still to be read. -/
abbrev Bits := List Bool

namespace Bits

/-- The bits of a byte. -/
def ofByte (b : UInt8) : Bits := (List.range 8).map fun i => b.toNat.testBit i

/-- The bits of bytes. -/
def ofBytes (bytes : List UInt8) : Bits := bytes.flatMap ofByte

/-- Read a number of some bits. -/
def number? : Nat → Bits → Option (Nat × Bits)
  | 0, bits => some (0, bits)
  | n + 1, b :: bits => (number? n bits).map fun (m, rest) => (b.toNat + 2 * m, rest)
  | _ + 1, [] => none

/-- Go on to the next whole byte, where the bits are those of some last bytes. -/
def align (bits : Bits) : Bits := bits.drop (bits.length % 8)

/-- Read bytes. -/
def bytes? : Nat → Bits → Option (List UInt8 × Bits)
  | 0, bits => some ([], bits)
  | n + 1, bits => do
    let (b, bits) ← number? 8 bits
    let (bytes, bits) ← bytes? n bits
    return (b.toUInt8 :: bytes, bits)

end Bits

/-! ## Prefix codes -/

/-- A prefix code with codes of up to some number of bits. -/
structure PrefixCode where
  /-- How many symbols have a code of one bit, of two bits and so on. -/
  counts : List Nat
  /-- The symbols in the order of their codes. -/
  symbols : List Nat
  deriving DecidableEq, Repr

namespace PrefixCode

/-- The indices of a number in a list. -/
def indicesOf (n : Nat) (list : List Nat) : List Nat :=
  (list.zipIdx.filter fun p => p.1 = n).map Prod.snd

/-- The code in which each symbol, counted from zero, has a code of the given length;
a length of zero means none. No code is longer than fifteen bits. -/
def ofLengths (lengths : List Nat) : PrefixCode :=
  let used := (List.range 15).map fun i => indicesOf (i + 1) lengths
  { counts := used.map List.length, symbols := used.flatten }

/-- The number of codes that are left, of a length at which some were left before, after
the lengths with the given counts; none if there are fewer than wanted. -/
def room? : Nat → List Nat → Option Nat
  | left, [] => some left
  | left, count :: counts =>
    if count ≤ 2 * left then room? (2 * left - count) counts else none

/-- Every sequence of bits begins with a code. -/
def isComplete (c : PrefixCode) : Bool := room? 1 c.counts = some 0

/-- Read a symbol. The excess is how far the bits so far are beyond the codes of their
length. -/
def readFrom? : Nat → List Nat → List Nat → Bits → Option (Nat × Bits)
  | excess, count :: counts, symbols, b :: bits =>
    let excess := 2 * excess + b.toNat
    if excess < count then symbols[excess]?.map (·, bits)
    else readFrom? (excess - count) counts (symbols.drop count) bits
  | _, _, _, _ => none

/-- Read a symbol. -/
def read? (c : PrefixCode) (bits : Bits) : Option (Nat × Bits) :=
  readFrom? 0 c.counts c.symbols bits

end PrefixCode

end Labeling
