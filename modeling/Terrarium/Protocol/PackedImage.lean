import Terrarium.Foundations.Chunks
import Terrarium.Foundations.Run
import Terrarium.Protocol.Frame

/-!
# PackedImage — the chunked container of guest images

`crates/terra-protocol/src/packed_image.rs` with the markers of `guest_image.rs`.  A packed image is
a header, a table of compressed chunk sizes, and the chunks' LZ4 blocks back to back.  Reads decode
the chunks they touch; a chunk that is read in part stays in a cache of one chunk.

The LZ4 block codec is a parameter.  `Lz4.Faithful` states what is assumed of it: blocks are not
empty, are no longer than the codec's own bound, and decode to the chunk they were made from.

Machine words are 64 bits wide.  An index out of bounds, or an underflow, ends in `Fault.panic`; a
read loop that would go on forever ends in `Fault.unfinished`.
-/

namespace Terrarium.Protocol

open Chunks Fallible Wire

/-! ## Markers -/

inductive GuestImage
  | boot
  | kernel
  deriving DecidableEq

def agentProtocolVersion : UInt8 := 2

/-- `kernel_abi::VERSION`. -/
def kernelAbiVersion : UInt16 := 1

def markerDataBytes : UInt8 := 3

def markerBytes : Nat := 7

inductive ErrorKind
  | invalidData
  | unexpectedEof
  | other
  deriving DecidableEq

structure IoError where
  kind : ErrorKind
  message : String
  deriving DecidableEq

def invalidDataError (message : String) : IoError :=
  ⟨.invalidData, message⟩

namespace GuestImage

/-- Two-byte identifier and agent version of a kind; the kernel carries no agent. -/
def identity : GuestImage → List UInt8 × UInt8
  | boot => ([0x54, 0x42], agentProtocolVersion)
  | kernel => ([0x54, 0x4b], 0)

def marker (kind : GuestImage) : List UInt8 :=
  kind.identity.1 ++ [markerDataBytes, 0, kind.identity.2] ++ u16Bytes kernelAbiVersion

def name : GuestImage → String
  | boot => "boot image"
  | kernel => "kernel"

def validate (kind : GuestImage) (extra : List UInt8) : Except IoError Unit :=
  ensure (extra = kind.marker) (invalidDataError ("guest " ++ kind.name ++
    " protocol marker is missing or incompatible; rebuild the kernel, agent, components, and " ++
    "runtime together"))

def chunkBytes : GuestImage → Nat
  | kernel => 1024 * 1024
  | boot => 64 * 1024

end GuestImage

/-! ## The container -/

/-- `TERRALZ` and the container version. -/
def magic : List UInt8 := [0x54, 0x45, 0x52, 0x52, 0x41, 0x4c, 0x5a, 0x02]

def magicEnd : Nat := 8
def markerEnd : Nat := magicEnd + markerBytes
def imageHeaderBytes : Nat := markerEnd + 8

def tableEntryBytes : Nat := 4

/-- How a call can fail to return. -/
inductive Fault
  | io (error : IoError)
  | panic
  | unfinished
  deriving DecidableEq

/-- The block codec; `decompressInto block out` is its result and what it leaves in `out`, which
keeps its length. -/
structure Lz4 where
  maximumOutputSize : Nat → Nat
  decompressInto : List UInt8 → List UInt8 → Except String Nat × List UInt8
  length_decompressInto : ∀ block out, (decompressInto block out).2.length = out.length

/-- A compressor whose blocks the codec decodes back. -/
structure Lz4.Faithful (lz4 : Lz4) (compressBlock : List UInt8 → Except IoError (List UInt8))
    (kind : GuestImage) : Prop where
  bound_lt : lz4.maximumOutputSize kind.chunkBytes < 2 ^ 32
  decompress_compress : ∀ chunk, chunk ≠ [] → chunk.length ≤ kind.chunkBytes →
    ∃ block, compressBlock chunk = .ok block ∧ 1 ≤ block.length ∧
      block.length ≤ lz4.maximumOutputSize kind.chunkBytes ∧
        ∀ out, out.length = chunk.length →
          lz4.decompressInto block out = (.ok chunk.length, chunk)

/-- `bytes.get(start..end)`. -/
def getRange (bytes : List UInt8) (start end_ : Nat) : Option (List UInt8) :=
  if start ≤ end_ ∧ end_ ≤ bytes.length then some ((bytes.take end_).drop start) else none

/-- `&bytes[start..end]`. -/
def indexRange (bytes : List UInt8) (start end_ : Nat) : Except Fault (List UInt8) :=
  orError .panic (getRange bytes start end_)

structure PackedImage where
  imageBytes : Nat
  chunkBytes : Nat
  blocks : List (Nat × Nat)
  payload : List UInt8
  cachedIndex : Option Nat
  cachedBytes : List UInt8
  deriving DecidableEq

namespace PackedImage

def invalid (message : String) : Fault :=
  .io (invalidDataError message)

def tableEnd (imageBytes chunkSize : Nat) : Option Nat :=
  let table := divCeil imageBytes chunkSize * tableEntryBytes
  if table < 2 ^ 64 ∧ table + imageHeaderBytes < 2 ^ 64 then some (table + imageHeaderBytes)
    else none

/-- The blocks a chunk table declares, and where the last one ends. -/
def readTable (maxCompressed : Nat) :
    List (List UInt8) → Nat → Except Fault (List (Nat × Nat) × Nat)
  | [], payloadBytes => .ok ([], payloadBytes)
  | entry :: entries, payloadBytes => do
      let compressedBytes := leNat entry
      ensure (compressedBytes ≠ 0 ∧ compressedBytes ≤ maxCompressed)
        (invalid "packed image chunk has an invalid compressed size")
      let end_ := payloadBytes + compressedBytes
      ensure (end_ < 2 ^ 64) (invalid "packed image payload size overflows")
      let (blocks, total) ← readTable maxCompressed entries end_
      return ((payloadBytes, end_) :: blocks, total)

def liftIo {α : Type} : Except IoError α → Except Fault α
  | .ok a => .ok a
  | .error e => .error (.io e)

variable (lz4 : Lz4)

/-- Validates the whole layout without decompressing anything. -/
def parse (bytes : List UInt8) (kind : GuestImage) : Except Fault PackedImage := do
  let header ← orError (invalid "packed image header is truncated")
    (getRange bytes 0 imageHeaderBytes)
  ensure ((← indexRange header 0 magicEnd) = magic)
    (invalid "guest image is not a packed image of this container version")
  liftIo (kind.validate (← indexRange header magicEnd markerEnd))
  let imageBytes := leNat (← indexRange header markerEnd imageHeaderBytes)
  ensure (imageBytes ≠ 0) (invalid "packed image is empty")
  let tableEnd ← orError (invalid "packed image chunk table overflows")
    (tableEnd imageBytes kind.chunkBytes)
  let table ← orError (invalid "packed image chunk table is truncated")
    (getRange bytes imageHeaderBytes tableEnd)
  let (blocks, payloadBytes) ←
    readTable (lz4.maximumOutputSize kind.chunkBytes) (chunks tableEntryBytes table) 0
  let payload ← indexRange bytes tableEnd bytes.length
  ensure (payload.length = payloadBytes)
    (invalid "packed image payload length does not match its chunk table")
  return ⟨imageBytes, kind.chunkBytes, blocks, payload, none, []⟩

/-- The decoded size of chunk `index`; only the last chunk can be short. -/
def chunkLen (img : PackedImage) (index : Nat) : Except Fault Nat := do
  ensure (index * img.chunkBytes ≤ img.imageBytes) .panic
  return min (img.imageBytes - index * img.chunkBytes) img.chunkBytes

/-- Decodes a block into `out`, which has to be filled. -/
def decodeBlock (block out : List UInt8) : Except Fault Unit × List UInt8 :=
  match lz4.decompressInto block out with
  | (.error message, out) => (.error (invalid message), out)
  | (.ok decoded, out) =>
      (ensure (decoded = out.length)
        (invalid "packed image chunk decodes to the wrong length"), out)

/-- Whole chunks decode straight into the buffer: the bytes taken. -/
def readWhole (img : PackedImage) (block : List UInt8) (chunkLen copied : Nat)
    (buf : List UInt8) : Except Fault Nat × PackedImage × List UInt8 :=
  let (result, out) := decodeBlock lz4 block ((buf.drop copied).take chunkLen)
  (result.map fun _ => chunkLen, img, overwrite buf copied out)

/-- `Vec::resize`. -/
def resize (bytes : List UInt8) (size : Nat) : List UInt8 :=
  bytes.take size ++ List.replicate (size - bytes.length) 0

/-- The cache with chunk `index` in it. -/
def fillCache (img : PackedImage) (block : List UInt8) (index chunkLen : Nat) :
    Except Fault Unit × PackedImage :=
  if img.cachedIndex = some index then (.ok (), img)
  else
    let cached := resize img.cachedBytes img.chunkBytes
    let (result, out) := decodeBlock lz4 block (cached.take chunkLen)
    let img := { img with cachedIndex := none, cachedBytes := overwrite cached 0 out }
    match result with
    | .error e => (.error e, img)
    | .ok () => (.ok (), { img with cachedIndex := some index })

/-- Parts of a chunk come from the cache: the bytes taken. -/
def readPart (img : PackedImage) (block : List UInt8)
    (index chunkLen within wanted copied : Nat) (buf : List UInt8) :
    Except Fault Nat × PackedImage × List UInt8 :=
  match fillCache lz4 img block index chunkLen with
  | (.error e, img) => (.error e, img, buf)
  | (.ok (), img) =>
      if chunkLen < within then (.error .panic, img, buf)
      else
        let take := min (chunkLen - within) wanted
        match indexRange img.cachedBytes within (within + take) with
        | .error e => (.error e, img, buf)
        | .ok part => (.ok take, img, overwrite buf copied part)

/-- The block of chunk `index` and the chunk's decoded size. -/
def locate (img : PackedImage) (index : Nat) : Except Fault (List UInt8 × Nat) := do
  let chunkLen ← img.chunkLen index
  let range ← orError .panic img.blocks[index]?
  let block ← indexRange img.payload range.1 range.2
  return (block, chunkLen)

/-- One turn of the loop of `readAt`: the bytes taken. -/
def readChunk (img : PackedImage) (position copied : Nat) (buf : List UInt8) :
    Except Fault Nat × PackedImage × List UInt8 :=
  let index := position / img.chunkBytes
  let within := position % img.chunkBytes
  match img.locate index with
  | .error e => (.error e, img, buf)
  | .ok (block, chunkLen) =>
      let wanted := buf.length - copied
      if within = 0 ∧ wanted ≥ chunkLen then readWhole lz4 img block chunkLen copied buf
      else readPart lz4 img block index chunkLen within wanted copied buf

def readLoop : Nat → PackedImage → Nat → Nat → List UInt8 →
    Except Fault Unit × PackedImage × List UInt8
  | fuel, img, position, copied, buf =>
      if copied < buf.length then
        match fuel with
        | 0 => (.error .unfinished, img, buf)
        | fuel + 1 =>
            match readChunk lz4 img position copied buf with
            | (.error e, img, buf) => (.error e, img, buf)
            | (.ok take, img, buf) => readLoop fuel img (position + take) (copied + take) buf
      else (.ok (), img, buf)

def inRange (img : PackedImage) (offset : UInt64) (length : Nat) : Bool :=
  offset.toNat + length < 2 ^ 64 ∧ offset.toNat + length ≤ img.imageBytes

/-- Fills `buf` from `offset`; each turn of the loop takes at least a byte. -/
def readAt (img : PackedImage) (offset : UInt64) (buf : List UInt8) :
    Except Fault Unit × PackedImage × List UInt8 :=
  if img.inRange offset buf.length then readLoop lz4 buf.length img offset.toNat 0 buf
  else (.error (.io ⟨.unexpectedEof, "read lies outside the packed image"⟩), img, buf)

def packChunks (compressBlock : List UInt8 → Except IoError (List UInt8)) (maxCompressed : Nat) :
    List (List UInt8) → List UInt8 → List UInt8 → Except IoError (List UInt8 × List UInt8)
  | [], table, payload => .ok (table, payload)
  | chunk :: rest, table, payload => do
      let block ← compressBlock chunk
      ensure (block ≠ [] ∧ block.length ≤ maxCompressed)
        (invalidDataError "compressed chunk has an invalid size")
      ensure (block.length < 2 ^ 32)
        ⟨.other, "out of range integral type conversion attempted"⟩
      packChunks compressBlock maxCompressed rest (table ++ leBytes 4 block.length)
        (payload ++ block)

def pack (compressBlock : List UInt8 → Except IoError (List UInt8))
    (image : List UInt8) (kind : GuestImage) : Except IoError (List UInt8) := do
  ensure (image ≠ []) (invalidDataError "cannot pack an empty image")
  let (table, payload) ← packChunks compressBlock (lz4.maximumOutputSize kind.chunkBytes)
    (chunks kind.chunkBytes image) [] []
  return magic ++ kind.marker ++ leBytes 8 image.length ++ table ++ payload

end PackedImage

end Terrarium.Protocol
