import Labeling.Compression.Bits
import Labeling.Geometry.Point

/-!
# Headers of JPEG files

A JPEG file is a list of segments, each with a code and a length. The one that opens
the frame holds the size (`Jpeg.Frame`), and the pixels begin after the one that opens a
scan. The size counts only if all segments up to there can be read, tables included, and
if the frame can be decoded: sequential or progressive, with samples of eight bits and
Huffman codes.
-/

namespace Labeling

namespace Jpeg

/-- The first bytes of a JPEG file. The first two stand alone, and the third one opens
a segment. -/
def signature : List UInt8 := [0xFF, 0xD8, 0xFF]

/-- What a segment is for. -/
inductive Marker where
  /-- Opens a frame that can be decoded. -/
  | frame
  /-- Opens a scan. -/
  | scan
  /-- Holds Huffman codes. -/
  | codes
  /-- Holds tables of quantization steps. -/
  | quantization
  /-- Says how often decoding begins anew. -/
  | restart
  /-- Belongs to an application, of which there are sixteen. -/
  | application (n : Nat)
  /-- Belongs to a file that cannot be decoded: a lossless, hierarchical or arithmetically
  coded frame, or the end of the file or a height before any scan. -/
  | refused
  /-- Anything else, such as a comment. -/
  | skipped
  deriving DecidableEq, Repr

/-- The meaning of a code. Among the codes of the sixteen kinds of frames stand the one
for Huffman codes and one that is reserved. -/
def Marker.ofCode (code : UInt8) : Marker :=
  if 0xC0 ≤ code ∧ code ≤ 0xC2 then .frame
  else if code = 0xC4 then .codes
  else if code = 0xC8 then .skipped
  else if 0xC3 ≤ code ∧ code ≤ 0xCF then .refused
  else if code = 0xDA then .scan
  else if code = 0xDB then .quantization
  else if code = 0xDD then .restart
  else if code = 0xD9 ∨ code = 0xDC then .refused
  else if 0xE0 ≤ code ∧ code ≤ 0xEF then .application (code.toNat - 0xE0)
  else .skipped

/-! ## The frame -/

/-- A frame. -/
structure Frame where
  dims : Dims
  /-- The numbers of its components. -/
  components : List UInt8
  deriving DecidableEq, Repr

namespace Frame

/-- A component can be sampled so many times as often across as another one. -/
def isFactor (factor : UInt8) : Bool := factor = 1 || factor = 2 || factor = 4 || factor = 8

/-- The numbers of components that are described by three bytes each: the number, the
sampling factors across and down, of which only the first one matters here, and one of
four tables. -/
def components? : List UInt8 → Option (List UInt8)
  | [] => some []
  | id :: factors :: table :: rest =>
    if isFactor (factors / 16) && table < 4 then (components? rest).map (id :: ·) else none
  | _ => none

/-- Read the segment that opens a frame: eight bits for a sample, the height, the width,
and up to four components. -/
def read? : List UInt8 → Option Frame
  | 8 :: h :: h' :: w :: w' :: count :: rest => do
    let dims ← Dims.ofSides? (bigEndian [w, w']) (bigEndian [h, h'])
    let components ← components? rest
    if components.length = count.toNat ∧ 1 ≤ count ∧ count ≤ 4 then
      return { dims, components }
    else none
  | _ => none

/-- The numbers of components that a scan names, in two bytes each: the number and
the tables. -/
def scanComponents : List UInt8 → List UInt8
  | id :: _ :: rest => id :: scanComponents rest
  | _ => []

/-- Three bytes say which part of the coefficients a scan holds: from which one to which
one of 64, and between which two bits of them, out of fourteen. -/
def isPart : List UInt8 → Bool
  | [first, last, bits] => first ≤ 63 && last ≤ 63 && bits / 16 ≤ 13 && bits % 16 ≤ 13
  | _ => false

/-- A segment opens a scan of the frame: it names some of the components, each once,
and ends with the part of the coefficients. -/
def opensScan (f : Frame) : List UInt8 → Bool
  | count :: rest =>
    let ids := scanComponents (rest.take (2 * count.toNat))
    1 ≤ count && count ≤ 4 && isPart (rest.drop (2 * count.toNat)) &&
      ids.all f.components.contains && decide ids.Nodup
  | [] => false

end Frame

/-! ## Tables -/

/-- The numbers of codes for lengths from some number of bits on leave room for one more
code of every length. The next code is where the codes of the length begin. -/
def leavesRoom : Nat → Nat → List UInt8 → Bool
  | _, _, [] => true
  | bits, next, count :: counts =>
    let next := next + count.toNat
    next < Nat.pow 2 bits && leavesRoom (bits + 1) (2 * next) counts

/-- A segment holds Huffman codes: for each one of four numbers and what it is for, how
many codes it has of one to sixteen bits, and the symbols. The symbols of a code for mean
values are numbers of bits, at most fifteen. -/
def areCodes : List UInt8 → Bool
  | [] => true
  | info :: rest =>
    let counts := rest.take 16
    let symbolCount := (counts.map UInt8.toNat).foldr (· + ·) 0
    let symbols := (rest.drop 16).take symbolCount
    counts.length = 16 && info % 16 < 4 && info / 16 ≤ 1 && symbolCount ≤ 256 &&
      symbols.length = symbolCount && leavesRoom 1 0 counts &&
      (info / 16 = 1 || symbols.all (· ≤ 15)) && areCodes (rest.drop (16 + symbolCount))
termination_by bytes => bytes.length
decreasing_by
  simp only [List.length_cons, List.length_drop]
  omega

/-- A segment holds tables of quantization steps: for each one of four numbers and
whether a step has one byte or two, and 64 steps. -/
def areQuantizationTables : List UInt8 → Bool
  | [] => true
  | info :: rest =>
    let size := 64 * ((info / 16).toNat + 1)
    info / 16 ≤ 1 && info % 16 < 4 && size ≤ rest.length &&
      areQuantizationTables (rest.drop size)
termination_by bytes => bytes.length
decreasing_by
  simp only [List.length_cons, List.length_drop]
  omega

/-! ## Data of applications -/

/-- How the data begins that tells which colours the components are. -/
def transformTag : List UInt8 := [0x41, 0x64, 0x6F, 0x62, 0x65]

/-- Where the kind of colours stands in that data. -/
def transformIndex : Nat := 11

/-- How the data begins that goes on with a long description. -/
def continuationTag : List UInt8 :=
  [0x68, 0x74, 0x74, 0x70, 0x3A, 0x2F, 0x2F, 0x6E, 0x73, 0x2E, 0x61, 0x64, 0x6F, 0x62, 0x65, 0x2E,
   0x63, 0x6F, 0x6D, 0x2F, 0x78, 0x6D, 0x70, 0x2F, 0x65, 0x78, 0x74, 0x65, 0x6E, 0x73, 0x69, 0x6F,
   0x6E, 0x2F, 0x00]

/-- The number of bytes that data continuing a description has before its text: the tag,
a key, the length of the whole and the place of the part. -/
def continuationHeader : Nat := continuationTag.length + 40

/-- The data tells the colours of the components. -/
def tellsTransform (marker : Marker) (rest : List UInt8) : Bool :=
  marker = .application 14 && transformTag.isPrefixOf rest

/-- The number of bytes that are read of the contents of a segment, which is its length.
Of the first application five bytes are looked at as soon as it has four. -/
def contentsLength (marker : Marker) (length : Nat) : Nat :=
  if marker = .application 0 ∧ length = 4 then 5 else length

/-- The data of an application can be read. There are three kinds of colours. -/
def acceptsData (marker : Marker) (length : Nat) (rest : List UInt8) : Bool :=
  if tellsTransform marker rest then
    transformIndex < length && (rest.drop transformIndex).headD 0xFF ≤ 2
  else if marker = .application 1 ∧ continuationTag.length < length ∧
      continuationTag.isPrefixOf rest then continuationHeader ≤ length
  else true

/-! ## Going through the segments -/

/-- The contents of a segment other than frames and scans can be read. -/
def accepts (marker : Marker) (length : Nat) (rest : List UInt8) : Bool :=
  match marker with
  | .codes => areCodes (rest.take length)
  | .quantization => areQuantizationTables (rest.take length)
  | .restart => length = 2
  | .application _ => acceptsData marker length rest
  | .skipped => true
  | _ => false

/-- Go through the segments to the first scan, with the frame as far as it was found. A
segment begins with a byte of ones and its code, possibly with more bytes of ones between
the two; then come its length, which counts itself, and its contents. -/
def dimsFrom? (frame : Option Frame) : List UInt8 → Option Dims
  | first :: code :: rest =>
    if first ≠ 0xFF ∨ code = 0xFF then dimsFrom? frame (code :: rest)
    else if code = 0 then dimsFrom? frame rest
    else
      let marker := Marker.ofCode code
      let length := bigEndian (rest.take 2) - 2
      let contents := rest.drop 2
      if bigEndian (rest.take 2) < 2 ∨ contents.length < contentsLength marker length then
        none
      else
        match marker, frame with
        | .frame, none =>
          match Frame.read? (contents.take length) with
          | some frame => dimsFrom? (some frame) (contents.drop length)
          | none => none
        | .frame, some _ => none
        | .scan, some frame =>
          if frame.opensScan (contents.take length) then some frame.dims else none
        | marker, frame =>
          if accepts marker length contents then
            dimsFrom? frame (contents.drop (contentsLength marker length))
          else none
  | _ => none
termination_by bytes => bytes.length
decreasing_by
  all_goals simp only [List.length_cons, List.length_drop]
  all_goals omega

/-- The size of the image whose segments are given. -/
def dims? (bytes : List UInt8) : Option Dims := dimsFrom? none bytes

end Jpeg

end Labeling
