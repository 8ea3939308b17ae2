import DatalogStrata.Gzip.Bits
import DatalogStrata.Output.Compressor

/-!
# An encoder for gzip

A gzip file has a header, a stream of blocks, and a trailer with a check sum and the number of
bytes. This encoder writes every byte by its fixed code and looks for no repetitions, as is usual
for texts too short to have any.

Bytes are gathered until the encoder is flushed or comes to its end, and are handed on as one block.
A flush adds an empty block without codes, behind which the next block begins with a byte of its
own.

## Main definitions

* `Gzip.codeOf`, `Gzip.block` — bytes by their codes
* `Gzip.checksum`, `Gzip.trailer` — what stands behind the blocks
* `GzipEncoder` — the encoder
-/

namespace DatalogStrata

namespace Gzip

/-- The code of a byte. Of a code the highest bit comes first. -/
def codeOf (byte : UInt8) : List Bool :=
  if byte.toNat < 144 then (lowBits 8 (48 + byte.toNat)).reverse
  else (lowBits 9 (256 + byte.toNat)).reverse

/-- The code for the end of a block. -/
def endCode : List Bool :=
  List.replicate 7 false

/-- A block of bytes, the last one of the stream or not. -/
def block (last : Bool) (bytes : List UInt8) : List Bool :=
  last :: true :: false :: (bytes.flatMap codeOf ++ endCode)

/-- A block, and behind it an empty one without codes. -/
def flushed (bytes : List UInt8) : List UInt8 :=
  pack (fill (block false bytes ++ [false, false, false])) ++ [0, 0, 0xff, 0xff]

/-- The last block of a stream. -/
def lastBlock (bytes : List UInt8) : List UInt8 :=
  pack (fill (block true bytes))

/-- A header: the format, the method, and nothing known about the origin. -/
def header : List UInt8 :=
  [0x1f, 0x8b, 8, 0, 0, 0, 0, 0, 0, 0xff]

/-- One bit of a division of check sums. -/
def divide (register : UInt32) : UInt32 :=
  if register &&& 1 = 1 then (register >>> 1) ^^^ 0xedb88320 else register >>> 1

/-- Add bytes to a check sum. -/
def addToChecksum (register : UInt32) (bytes : List UInt8) : UInt32 :=
  bytes.foldl (fun register byte => Nat.repeat divide 8 (register ^^^ byte.toUInt32)) register

/-- The check sum of no bytes, before it is put out. -/
def emptyChecksum : UInt32 :=
  0xffffffff

/-- The bytes of a number, the lowest first. -/
def wordBytes (word : UInt32) : List UInt8 :=
  (List.range 4).map fun place => UInt8.ofNat (word.toNat >>> (8 * place))

/-- A trailer: the check sum and the number of bytes. -/
def trailer (register : UInt32) (count : Nat) : List UInt8 :=
  wordBytes (~~~register) ++ wordBytes (UInt32.ofNat count)

end Gzip

/-- An encoder for gzip. -/
structure GzipEncoder where
  /-- Whether the header has been handed on. -/
  begun : Bool
  /-- The bytes for the next block. -/
  gathered : List UInt8
  /-- The check sum of all bytes, before it is put out. -/
  register : UInt32
  /-- The number of all bytes. -/
  count : Nat
deriving DecidableEq, Repr

namespace GzipEncoder

/-- The header, unless it has been handed on. -/
def opening (encoder : GzipEncoder) : List (List UInt8) :=
  if encoder.begun then [] else [Gzip.header]

/-- Take bytes. -/
def write (encoder : GzipEncoder) (bytes : List UInt8) : List (List UInt8) × GzipEncoder :=
  (encoder.opening,
    ⟨true, encoder.gathered ++ bytes, Gzip.addToChecksum encoder.register bytes,
      encoder.count + bytes.length⟩)

/-- Hand on what was gathered. -/
def flush (encoder : GzipEncoder) : List (List UInt8) × GzipEncoder :=
  (encoder.opening ++ [Gzip.flushed encoder.gathered],
    { encoder with begun := true, gathered := [] })

/-- Hand on what was gathered in the last block, and the trailer. -/
def close (encoder : GzipEncoder) : List (List UInt8) :=
  encoder.opening ++
    [Gzip.lastBlock encoder.gathered, Gzip.trailer encoder.register encoder.count]

instance : Compressor GzipEncoder where
  start := ⟨false, [], Gzip.emptyChecksum, 0⟩
  write := write
  flush := flush
  finish := close
  -- Nobody is left to hear of a failure, but there is no other difference.
  drop := close

end GzipEncoder

end DatalogStrata
