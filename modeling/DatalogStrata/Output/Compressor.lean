import DatalogStrata.Output.Block

/-!
# Compressed files

What is written to a compressed file goes to an encoder. Which encoder that is, and when and in
which pieces it hands on what it makes of the bytes that it is given, is left open here. What it
hands on is gathered in blocks like the bytes of any other file.

An encoder that is flushed hands on what it has made so far. At its end it hands on the rest,
whether it is asked to finish or is dropped.

## Main definitions

* `Compressor` — what an encoder can do
* `PackedBuffer` — the sink in front of a compressed file
* `PackedBuffer.finish`, `PackedBuffer.drop` — what is left for the file in the end
-/

namespace DatalogStrata

/-- What an encoder can do. What it hands on comes in pieces. -/
class Compressor (ε : Type) where
  /-- An encoder before anything is written. -/
  start : ε
  /-- Take bytes. -/
  write : ε → List UInt8 → List (List UInt8) × ε
  /-- Hand on what was made so far. -/
  flush : ε → List (List UInt8) × ε
  /-- What is handed on by an encoder that is asked to finish. -/
  finish : ε → List (List UInt8)
  /-- What is handed on by an encoder that is dropped. -/
  drop : ε → List (List UInt8)

/-- Take several pieces. -/
def BlockBuffer.takeAll (buffer : BlockBuffer) (pieces : List (List UInt8)) : BlockBuffer :=
  pieces.foldl take buffer

/-- A sink in front of a compressed file: an encoder, and the buffer that it hands on to. -/
structure PackedBuffer (ε : Type) where
  encoder : ε
  buffer : BlockBuffer
deriving DecidableEq, Repr

namespace PackedBuffer

variable {ε : Type} [Compressor ε]

/-- A sink before anything is written. -/
def empty : PackedBuffer ε :=
  ⟨Compressor.start, BlockBuffer.empty⟩

/-- Pass bytes to the encoder. It is not asked to take none. -/
def write (sink : PackedBuffer ε) (bytes : List UInt8) : PackedBuffer ε :=
  if bytes = [] then sink
  else
    let (pieces, encoder) := Compressor.write sink.encoder bytes
    ⟨encoder, sink.buffer.takeAll pieces⟩

/-- Flush the encoder, then the buffer. -/
def flush (sink : PackedBuffer ε) : PackedBuffer ε :=
  let (pieces, encoder) := Compressor.flush sink.encoder
  ⟨encoder, (sink.buffer.takeAll pieces).sendBlock⟩

instance : Sink (PackedBuffer ε) where
  write sink text := (.ok (), sink.write (bytesOf text))
  flush sink := (.ok (), sink.flush)

/-- Finish the encoder and flush the buffer that is left. -/
def finish (sink : PackedBuffer ε) : BlockBuffer :=
  (sink.buffer.takeAll (Compressor.finish sink.encoder)).sendBlock

/-- Drop the encoder; a buffer is left. -/
def drop (sink : PackedBuffer ε) : BlockBuffer :=
  sink.buffer.takeAll (Compressor.drop sink.encoder)

end PackedBuffer

end DatalogStrata
