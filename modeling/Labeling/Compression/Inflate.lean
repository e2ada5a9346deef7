import Labeling.Compression.Bits

/-!
# Reading compressed data

Compressed data is a sequence of blocks. A block holds bytes as they are, or symbols in
two prefix codes: one for bytes and for lengths of repetitions, the other for how far
back a repetition begins. The codes are fixed ones, or stand at the beginning of the
block, themselves compressed.

`decompress?` reads such data between its two bytes of header and its check sum, which
consists of two sums modulo a prime (`pairedSum`). The other check sum guards the chunks of
a PNG file; it is the remainder of a division of polynomials (`cyclicSum`).
-/

namespace Labeling

/-! ## Check sums -/

/-- Divide by the polynomial of the cyclic sum, one bit further. -/
def cyclicStep (remainder : UInt32) : UInt32 :=
  if remainder &&& 1 = 1 then (remainder >>> 1) ^^^ 0xEDB88320 else remainder >>> 1

/-- Take in one byte. -/
def cyclicByte (remainder : UInt32) (b : UInt8) : UInt32 :=
  Nat.repeat cyclicStep 8 (remainder ^^^ b.toUInt32)

/-- The cyclic redundancy check of 32 bits, with all bits flipped before and after. -/
def cyclicSum (bytes : List UInt8) : Nat :=
  ((bytes.foldl cyclicByte 0xFFFFFFFF) ^^^ 0xFFFFFFFF).toNat

/-- The greatest prime below 2^16. -/
def sumModulus : Nat := 65521

/-- The sum of all bytes, beginning with one, below the sum of all such sums. -/
def pairedSum (bytes : List UInt8) : Nat :=
  let (low, high) := bytes.foldl
    (fun (low, high) b =>
      let low := (low + b.toNat) % sumModulus
      (low, (high + low) % sumModulus))
    (1, 0)
  65536 * high + low

namespace Inflate

/-! ## Symbols -/

/-- The least length and the number of further bits for the symbols from 257 on. -/
def lengths : List (Nat × Nat) :=
  [(3, 0), (4, 0), (5, 0), (6, 0), (7, 0), (8, 0), (9, 0), (10, 0), (11, 1), (13, 1), (15, 1),
   (17, 1), (19, 2), (23, 2), (27, 2), (31, 2), (35, 3), (43, 3), (51, 3), (59, 3), (67, 4),
   (83, 4), (99, 4), (115, 4), (131, 5), (163, 5), (195, 5), (227, 5), (258, 0)]

/-- The least distance and the number of further bits for the symbols of distances. -/
def distances : List (Nat × Nat) :=
  [(1, 0), (2, 0), (3, 0), (4, 0), (5, 1), (7, 1), (9, 2), (13, 2), (17, 3), (25, 3), (33, 4),
   (49, 4), (65, 5), (97, 5), (129, 6), (193, 6), (257, 7), (385, 7), (513, 8), (769, 8),
   (1025, 9), (1537, 9), (2049, 10), (3073, 10), (4097, 11), (6145, 11), (8193, 12),
   (12289, 12), (16385, 13), (24577, 13)]

/-- Read the further bits of a symbol. -/
def further? (table : List (Nat × Nat)) (symbol : Nat) (bits : Bits) : Option (Nat × Bits) := do
  let (least, width) ← table[symbol]?
  let (more, bits) ← Bits.number? width bits
  return (least + more, bits)

/-- Repeat bytes from a distance before the end; the repetition may run into itself. -/
def repeated? (distance : Nat) : Nat → Array UInt8 → Option (Array UInt8)
  | 0, out => some out
  | n + 1, out =>
    if distance ≤ out.size then do repeated? distance n (out.push (← out[out.size - distance]?))
    else none

/-- The two codes of a block. -/
structure Codes where
  literals : PrefixCode
  distances : PrefixCode

/-- Read symbols up to the end of the block. Every one takes at least one bit. -/
def symbols? (c : Codes) : Nat → Array UInt8 → Bits → Option (Array UInt8 × Bits)
  | 0, _, _ => none
  | fuel + 1, out, bits => do
    let (symbol, bits) ← c.literals.read? bits
    if symbol < 256 then symbols? c fuel (out.push symbol.toUInt8) bits
    else if symbol = 256 then return (out, bits)
    else
      let (length, bits) ← further? lengths (symbol - 257) bits
      let (symbol, bits) ← c.distances.read? bits
      let (distance, bits) ← further? distances symbol bits
      symbols? c fuel (← repeated? distance length out) bits

/-! ## The codes of a block -/

/-- The codes of a block without codes of its own. -/
def fixedCodes : Codes where
  literals := .ofLengths (List.replicate 144 8 ++ List.replicate 112 9 ++ List.replicate 24 7 ++
    List.replicate 8 8)
  distances := .ofLengths (List.replicate 30 5)

/-- The order in which the lengths of the code for lengths are written. -/
def lengthOrder : List Nat :=
  [16, 17, 18, 0, 8, 7, 9, 6, 10, 5, 11, 4, 12, 3, 13, 2, 14, 1, 15]

/-- Read lengths of three bits each. -/
def smallLengths? : Nat → Bits → Option (List Nat × Bits)
  | 0, bits => some ([], bits)
  | n + 1, bits => do
    let (length, bits) ← Bits.number? 3 bits
    let (rest, bits) ← smallLengths? n bits
    return (length :: rest, bits)

/-- Read the lengths of codes, to which some are already known. A length stands for
itself, and the symbols from 16 on repeat the last length or zero. -/
def codeLengths? (c : PrefixCode) (wanted : Nat) :
    Nat → List Nat → Bits → Option (List Nat × Bits)
  | 0, _, _ => none
  | fuel + 1, known, bits =>
    if known.length = wanted then some (known, bits)
    else if wanted < known.length then none
    else do
      let (symbol, bits) ← c.read? bits
      if symbol < 16 then codeLengths? c wanted fuel (known ++ [symbol]) bits
      else
        let (width, least) :=
          if symbol = 16 then (2, 3) else if symbol = 17 then (3, 3) else (7, 11)
        let length ← if symbol = 16 then known.getLast? else some 0
        let (more, bits) ← Bits.number? width bits
        codeLengths? c wanted fuel (known ++ List.replicate (least + more) length) bits

/-- A code for distances: every sequence of bits begins with a code, or there is a single
code, of one bit, or none at all. -/
def isDistanceCode (c : PrefixCode) : Bool :=
  c.isComplete || c.symbols.isEmpty || (c.symbols.length = 1 && c.counts.headD 0 = 1)

/-- Read the codes at the beginning of a block. There are at most 286 symbols for bytes
and lengths, and at most 30 for distances. -/
def ownCodes? (bits : Bits) : Option (Codes × Bits) := do
  let (literals, bits) ← Bits.number? 5 bits
  let (distances, bits) ← Bits.number? 5 bits
  let (small, bits) ← Bits.number? 4 bits
  let (lengths, bits) ← smallLengths? (small + 4) bits
  let written := lengthOrder.zip lengths
  let code : PrefixCode := .ofLengths ((List.range 19).map fun s => (written.lookup s).getD 0)
  let wanted := literals + 257 + (distances + 1)
  let (lengths, bits) ← codeLengths? code wanted (wanted + 1) [] bits
  let codes : Codes :=
    ⟨.ofLengths (lengths.take (literals + 257)), .ofLengths (lengths.drop (literals + 257))⟩
  if literals < 30 && distances < 30 && code.isComplete && codes.literals.isComplete &&
      isDistanceCode codes.distances then
    return (codes, bits)
  else none

/-! ## Blocks -/

/-- Read a block of bytes as they are: their number, the same number with all bits
flipped, and the bytes. -/
def stored? (out : Array UInt8) (bits : Bits) : Option (Array UInt8 × Bits) := do
  let (length, bits) ← Bits.number? 16 bits.align
  let (flipped, bits) ← Bits.number? 16 bits
  if length + flipped = 0xFFFF then
    let (bytes, bits) ← Bits.bytes? length bits
    return (out ++ bytes.toArray, bits)
  else none

/-- Read a block of a kind. -/
def block? (kind : Nat) (out : Array UInt8) (bits : Bits) : Option (Array UInt8 × Bits) :=
  match kind with
  | 0 => stored? out bits
  | 1 => symbols? fixedCodes (bits.length + 1) out bits
  | 2 => do
    let (codes, bits) ← ownCodes? bits
    symbols? codes (bits.length + 1) out bits
  | _ => none

/-- Read blocks up to the last one, which is marked. Every one takes some bits. -/
def blocks? : Nat → Array UInt8 → Bits → Option (Array UInt8 × Bits)
  | 0, _, _ => none
  | fuel + 1, out, bits => do
    let (last, bits) ← Bits.number? 1 bits
    let (kind, bits) ← Bits.number? 2 bits
    let (out, bits) ← block? kind out bits
    if last = 1 then return (out, bits) else blocks? fuel out bits

end Inflate

/-- Read compressed data: two bytes that say how it is compressed, the blocks, and the
check sum of what they hold. What follows is ignored. -/
def decompress? (bytes : List UInt8) : Option (List UInt8) :=
  match bytes with
  | method :: flags :: rest => do
    if method % 16 = 8 ∧ method / 16 ≤ 7 ∧ bigEndian [method, flags] % 31 = 0 ∧
        flags &&& 0x20 = 0 then
      let bits := Bits.ofBytes rest
      let (out, bits) ← Inflate.blocks? (bits.length + 1) #[] bits
      let (sum, _) ← Bits.bytes? 4 bits.align
      if bigEndian sum = pairedSum out.toList then return out.toList else none
    else none
  | _ => none

end Labeling
