import Labeling.Compression.Inflate
import Labeling.Geometry.Point

/-!
# Headers of PNG files

A PNG file is a list of chunks. The first one holds the size (`Png.Header`), and the
pixels begin with the first chunk named `IDAT`. The size counts only if all chunks up to
there can be read, and if a row of pixels can be decoded afterwards.

Reading takes memory, of which there is a fixed amount (`Png.memoryLimit`): the chunks
that matter are read into a buffer that grows by doubling, texts and data on colours are
kept, and a decoded row needs room. What was read and what memory is left is the state
that goes through the chunks (`Png.Survey`).
-/

namespace Labeling

namespace Png

/-! ## Chunks -/

/-- The first bytes of a PNG file. -/
def signature : List UInt8 := [0x89, 0x50, 0x4E, 0x47, 0x0D, 0x0A, 0x1A, 0x0A]

/-- What a chunk is for, as far as it matters before the pixels. -/
inductive ChunkKind where
  /-- The header of the image, `IHDR`. -/
  | header
  /-- The colours of an image whose pixels are indices, `PLTE`. -/
  | palette
  /-- The colours that are transparent, `tRNS`. -/
  | transparency
  /-- A text, `tEXt`, `zTXt` or `iTXt`. -/
  | text
  /-- Data on how the image was taken, `eXIf`. It is read and then left alone. -/
  | exif
  /-- How the colours are meant, as compressed data, `iCCP`. -/
  | profile
  /-- Pixels, `IDAT`. -/
  | pixels
  /-- Any other chunk without which the image cannot be shown, among them the end. -/
  | critical
  /-- Any other chunk, which is skipped. -/
  | skipped
  deriving DecidableEq, Repr

/-- The bytes of a name. -/
def nameBytes (name : String) : List UInt8 := name.toList.map fun c => c.toNat.toUInt8

/-- The kinds of the chunks with a name of their own. -/
def chunkKinds : List (List UInt8 × ChunkKind) :=
  [(nameBytes "IHDR", .header), (nameBytes "PLTE", .palette), (nameBytes "tRNS", .transparency),
   (nameBytes "tEXt", .text), (nameBytes "zTXt", .text), (nameBytes "iTXt", .text),
   (nameBytes "eXIf", .exif), (nameBytes "iCCP", .profile), (nameBytes "IDAT", .pixels)]

/-- The kind of a name. The first letter of a name is a capital if the chunk is
critical. -/
def ChunkKind.ofName (name : List UInt8) : ChunkKind :=
  match chunkKinds.lookup name with
  | some kind => kind
  | none => if name.headD 0 &&& 0x20 = 0 then .critical else .skipped

/-- The image cannot be shown without a chunk of this kind. -/
def ChunkKind.isCritical : ChunkKind → Bool
  | .header => true
  | .palette => true
  | .pixels => true
  | .critical => true
  | _ => false

/-- A chunk of a file. -/
structure Chunk where
  name : List UInt8
  data : List UInt8
  /-- The check sum that follows the data. -/
  sum : Nat

namespace Chunk

/-- The number of bytes of the data of the chunk that begins here. -/
def lengthAt (bytes : List UInt8) : Nat := bigEndian (bytes.take 4)

/-- The name of the chunk that begins here. -/
def nameAt (bytes : List UInt8) : List UInt8 := (bytes.drop 4).take 4

/-- What follows the chunk that begins here. -/
def after (bytes : List UInt8) : List UInt8 := bytes.drop (12 + lengthAt bytes)

/-- The chunk that begins here, if it is there as a whole. -/
def at? (bytes : List UInt8) : Option Chunk :=
  if bytes.length < 12 + lengthAt bytes then none
  else
    let data := bytes.drop 8
    some ⟨nameAt bytes, data.take (lengthAt bytes), bigEndian ((data.drop (lengthAt bytes)).take 4)⟩

/-- The kind of a chunk. -/
def kind (c : Chunk) : ChunkKind := .ofName c.name

/-- The check sum fits name and data. -/
def isSound (c : Chunk) : Bool := c.sum = cyclicSum (c.name ++ c.data)

end Chunk

/-! ## The header -/

/-- How the pixels of an image are stored. -/
inductive Color where
  | gray
  | rgb
  /-- As entries of a palette. -/
  | indexed
  | grayAlpha
  | rgba
  deriving DecidableEq, Repr

namespace Color

/-- The meaning of a code. -/
def ofCode? : UInt8 → Option Color
  | 0 => some .gray
  | 2 => some .rgb
  | 3 => some .indexed
  | 4 => some .grayAlpha
  | 6 => some .rgba
  | _ => none

/-- The numbers of bits that a sample can have. -/
def depths : Color → List UInt8
  | .gray => [1, 2, 4, 8, 16]
  | .indexed => [1, 2, 4, 8]
  | _ => [8, 16]

/-- The number of samples of a decoded pixel. The entry of a palette stands for three
samples, and where a colour is transparent every pixel gets one more. -/
def samples (transparent : Bool) : Color → Nat
  | .gray => if transparent then 2 else 1
  | .rgb => if transparent then 4 else 3
  | .indexed => if transparent then 4 else 3
  | .grayAlpha => 2
  | .rgba => 4

end Color

/-- What the first chunk says. -/
structure Header where
  dims : Dims
  color : Color
  /-- The number of bits of a sample. -/
  depth : UInt8
  deriving DecidableEq, Repr

namespace Header

/-- Read the data of the first chunk: width and height, the bits of a sample, the kind
of pixels, the one way to compress and the one way to filter them, and whether they
are interlaced. -/
def read? (data : List UInt8) : Option Header :=
  match data.drop 8 with
  | [depth, code, 0, 0, interlaced] => do
    let dims ← Dims.ofSides? (bigEndian (data.take 4)) (bigEndian ((data.drop 4).take 4))
    let color ← Color.ofCode? code
    if color.depths.contains depth ∧ interlaced ≤ 1 then return { dims, color, depth } else none
  | _ => none

/-- The number of bytes of a decoded row. A decoded sample has one byte or two. -/
def rowLength (h : Header) (transparent : Bool) : Nat :=
  h.dims.width * h.color.samples transparent * (if h.depth = 16 then 2 else 1)

end Header

/-! ## Going through the chunks -/

/-- The memory that there is, 512 MiB. -/
def memoryLimit : Nat := Nat.pow 2 29

/-- What was read before the pixels. -/
structure Survey where
  header : Header
  hasPalette : Bool
  /-- There is a transparent colour. -/
  transparent : Bool
  /-- There was data on how the colours are meant. -/
  hasProfile : Bool
  /-- The number of bytes that the buffer for chunks holds. -/
  buffer : Nat
  /-- The memory that is left. -/
  memory : Nat
  deriving DecidableEq, Repr

namespace Survey

/-- The state after the header. -/
def start (header : Header) : Survey :=
  { header, hasPalette := false, transparent := false, hasProfile := false, buffer := 128
    memory := memoryLimit }

/-- Take memory, if there is enough. -/
def reserve? (s : Survey) (size : Nat) : Option Survey :=
  if size ≤ s.memory then some { s with memory := s.memory - size } else none

/-- A size, doubled until it suffices. -/
def doubled (size wanted : Nat) : Nat :=
  if 0 < size ∧ size < wanted then doubled (2 * size) wanted else size
termination_by wanted - size

/-- Make the buffer large enough for some data. -/
def grow? (s : Survey) (length : Nat) : Option Survey :=
  let buffer := doubled s.buffer length
  { s with buffer }.reserve? (buffer - s.buffer)

/-- The data of a transparency chunk suits the kind of pixels. With a palette it comes
after it, and for pixels with an opacity of their own it does not make sense. -/
def acceptsTransparency (s : Survey) (data : List UInt8) : Bool :=
  match s.header.color with
  | .gray => 2 ≤ data.length
  | .rgb => 6 ≤ data.length
  | .indexed => s.hasPalette
  | _ => false

/-- The data on how the colours are meant: a name of at most eighty bytes that ends with
a zero, another zero, and compressed data. -/
def profileData? (data : List UInt8) : Option (List UInt8) :=
  let name := data.takeWhile (· ≠ 0)
  match data.drop name.length with
  | 0 :: 0 :: packed => if name.isEmpty || 80 < name.length then none else decompress? packed
  | _ => none

/-- Keep the data on how the colours are meant. Data that cannot be read, or does not
fit into memory, is dropped. -/
def keepProfile (s : Survey) (data : List UInt8) : Survey :=
  let s := { s with hasProfile := true }
  match profileData? data with
  | some profile => (s.reserve? profile.length).getD s
  | none => s

/-- Take in the data of a chunk. There is one header and at most one palette. -/
def takeIn? (s : Survey) (kind : ChunkKind) (data : List UInt8) : Option Survey :=
  match kind with
  | .palette => if s.hasPalette then none else some { s with hasPalette := true }
  | .transparency => some { s with transparent := s.transparent || s.acceptsTransparency data }
  | .text => s.reserve? data.length
  | .exif => some s
  | .profile => some (if s.hasProfile then s else s.keepProfile data)
  | .skipped => some s
  | _ => none

/-- Read a chunk. If its check sum does not fit, it is ignored, unless it is critical. -/
def read? (s : Survey) (c : Chunk) : Option Survey :=
  if c.kind = .skipped then some s
  else do
    let s ← s.grow? c.data.length
    if c.isSound then s.takeIn? c.kind c.data
    else if c.kind.isCritical then none
    else return s

/-- Go through the chunks to the pixels. -/
def toPixels? (s : Survey) (bytes : List UInt8) : Option Survey :=
  if bytes.length < 8 then none
  else if ChunkKind.ofName (Chunk.nameAt bytes) = .pixels then some s
  else
    match (Chunk.at? bytes).bind s.read? with
    | some s => toPixels? s (Chunk.after bytes)
    | none => none
termination_by bytes.length
decreasing_by
  simp only [Chunk.after, List.length_drop]
  omega

/-- A decoded row fits into the memory that is left. -/
def fitsRow (s : Survey) : Bool := s.header.rowLength s.transparent ≤ s.memory

end Survey

/-- The size of the image whose chunks are given. -/
def dims? (bytes : List UInt8) : Option Dims := do
  let first ← Chunk.at? bytes
  if first.kind = .header && first.isSound then
    let header ← Header.read? first.data
    let s ← (Survey.start header).toPixels? (Chunk.after bytes)
    if s.fitsRow then return header.dims else none
  else none

end Png

end Labeling
