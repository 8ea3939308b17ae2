import DatalogStrata.Output.Compressor
import DatalogStrata.Proofs.Output.Sink

/-!
# What an encoder has been given

An encoder is as good as its decoder finds it: whatever it was given, and however often it was
flushed, at its end the decoder has to find all of it again in what was handed on.

## Main definitions

* `Compressor.Used` — what an encoder was given and what it has handed on
* `Compressor.Lossless` — a decoder finds again what the encoder was given
* `PackedBuffer.Gathered` — what a sink in front of a compressed file was given, as far as the file
  has it

## Main results

* `PackedBuffer.gathers` — nothing is refused or lost on the way
* `PackedBuffer.Gathered.finish`, `PackedBuffer.Gathered.drop` — what the file holds in the end
-/

namespace DatalogStrata

section Encoder

variable {ε : Type} [Compressor ε]

/-- An encoder that was given some bytes and has handed on others. -/
inductive Compressor.Used : ε → List UInt8 → List UInt8 → Prop
  | start : Used start [] []
  | write {encoder : ε} {written handed : List UInt8} (used : Used encoder written handed)
      (bytes : List UInt8) :
      Used (write encoder bytes).2 (written ++ bytes) (handed ++ (write encoder bytes).1.flatten)
  | flush {encoder : ε} {written handed : List UInt8} (used : Used encoder written handed) :
      Used (flush encoder).2 written (handed ++ (flush encoder).1.flatten)

variable (ε) in
/-- A decoder finds again what the encoder was given, whether it was asked to finish or was
dropped. -/
structure Compressor.Lossless (decode : List UInt8 → Option (List UInt8)) : Prop where
  finish : ∀ {encoder : ε} {written handed : List UInt8}, Used encoder written handed →
    decode (handed ++ (finish encoder).flatten) = some written
  drop : ∀ {encoder : ε} {written handed : List UInt8}, Used encoder written handed →
    decode (handed ++ (drop encoder).flatten) = some written

end Encoder

theorem BlockBuffer.rest_takeAll (pieces : List (List UInt8)) :
    ∀ buffer : BlockBuffer, (buffer.takeAll pieces).rest = buffer.rest ++ pieces.flatten := by
  induction pieces with
  | nil => simp [takeAll]
  | cons piece pieces ih =>
    intro buffer
    have others := ih (buffer.take piece)
    rw [rest_take, List.append_assoc] at others
    exact others

theorem BlockBuffer.rest_sendBlock (buffer : BlockBuffer) :
    buffer.sendBlock.rest = buffer.rest := by
  simp [sendBlock, rest]

namespace PackedBuffer

variable {ε : Type} [Compressor ε] {decode : List UInt8 → Option (List UInt8)}
variable {sink : PackedBuffer ε} {stored written : List UInt8}

/-- The encoder of a sink was given some bytes, and what it has handed on is in part in the file and
in part still to reach it. -/
def Gathered (stored : List UInt8) (sink : PackedBuffer ε) (written : List UInt8) : Prop :=
  Compressor.Used sink.encoder written (stored ++ sink.buffer.rest)

theorem gathered_empty : Gathered [] (empty : PackedBuffer ε) [] :=
  .start

theorem Gathered.write (gathered : Gathered stored sink written) (bytes : List UInt8) :
    Gathered stored (sink.write bytes) (written ++ bytes) := by
  unfold PackedBuffer.write
  split
  case isTrue nothing =>
    rw [nothing, List.append_nil]
    exact gathered
  case isFalse =>
    have used := Compressor.Used.write gathered bytes
    rw [List.append_assoc, ← BlockBuffer.rest_takeAll] at used
    exact used

theorem Gathered.flush (gathered : Gathered stored sink written) :
    Gathered stored sink.flush written := by
  have used := Compressor.Used.flush gathered
  rw [List.append_assoc, ← BlockBuffer.rest_takeAll, ← BlockBuffer.rest_sendBlock] at used
  exact used

theorem gathers (stored : List UInt8) : Sink.Gathers (Gathered (ε := ε) stored) where
  write_ok _ _ := rfl
  write gathered text := gathered.write (bytesOf text)
  flush_ok _ := rfl
  flush gathered := gathered.flush

/-- What has been sent can go to the file at once. -/
theorem Gathered.fetched (gathered : Gathered stored sink written) :
    Gathered (stored ++ sink.buffer.sent) ⟨sink.encoder, sink.buffer.fetched⟩ written := by
  unfold Gathered at gathered ⊢
  simpa [BlockBuffer.rest, BlockBuffer.fetched] using gathered

/-- With what is left once the encoder has finished, the file holds what was written. -/
theorem Gathered.finish (lossless : Compressor.Lossless ε decode)
    (gathered : Gathered stored sink written) :
    decode (stored ++ sink.finish.rest) = some written := by
  have decoded := lossless.finish gathered
  rw [List.append_assoc, ← BlockBuffer.rest_takeAll, ← BlockBuffer.rest_sendBlock] at decoded
  exact decoded

/-- With what is left once the encoder has been dropped, the file holds what was written. -/
theorem Gathered.drop (lossless : Compressor.Lossless ε decode)
    (gathered : Gathered stored sink written) :
    decode (stored ++ sink.drop.rest) = some written := by
  have decoded := lossless.drop gathered
  rw [List.append_assoc, ← BlockBuffer.rest_takeAll] at decoded
  exact decoded

end PackedBuffer

end DatalogStrata
