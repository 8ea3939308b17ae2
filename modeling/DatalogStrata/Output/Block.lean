import DatalogStrata.Output.Sink

/-!
# Buffered files

Bytes for a file are gathered in a block. A text that does not fit in what is left of the block
sends the block on its way first, and a text as long as a block goes to the file without being
gathered. So a text is never split between two blocks.

What has been sent on its way waits here until it is fetched, since a sink knows nothing of files.

## Main definitions

* `BlockBuffer` — the sink in front of a file
* `BlockBuffer.rest` — what is still to reach the file
-/

namespace DatalogStrata

/-- A sink in front of a file. -/
structure BlockBuffer where
  /-- The bytes on their way to the file. -/
  sent : List UInt8
  /-- The bytes gathered in the block. -/
  held : List UInt8
deriving DecidableEq, Repr

namespace BlockBuffer

/-- How many bytes a block holds. -/
def blockSize : Nat := 8192

/-- A buffer before anything is written. -/
def empty : BlockBuffer :=
  ⟨[], []⟩

/-- Send the block on its way. -/
def sendBlock (buffer : BlockBuffer) : BlockBuffer :=
  ⟨buffer.sent ++ buffer.held, []⟩

/-- Add bytes to the block, or send them after it when they would fill a block by themselves. -/
def add (buffer : BlockBuffer) (bytes : List UInt8) : BlockBuffer :=
  if bytes.length < blockSize then { buffer with held := buffer.held ++ bytes }
  else { buffer with sent := buffer.sent ++ bytes }

/-- Take bytes. -/
def take (buffer : BlockBuffer) (bytes : List UInt8) : BlockBuffer :=
  if buffer.held.length + bytes.length ≤ blockSize then buffer.add bytes
  else buffer.sendBlock.add bytes

instance : Sink BlockBuffer where
  write buffer text := (.ok (), buffer.take (bytesOf text))
  flush buffer := (.ok (), buffer.sendBlock)

/-- Everything that is still to reach the file. -/
def rest (buffer : BlockBuffer) : List UInt8 :=
  buffer.sent ++ buffer.held

/-- The buffer once what it has sent has been fetched. -/
def fetched (buffer : BlockBuffer) : BlockBuffer :=
  { buffer with sent := [] }

end BlockBuffer

end DatalogStrata
