import DatalogStrata.Proofs.Gzip.Blocks
import DatalogStrata.Proofs.Output.Compressor

/-!
# The encoder is lossless

Whatever the encoder was given, in whatever pieces and with whatever flushes in between, the decoder
finds it again in what was handed on.

## Main definitions

* `GzipEncoder.Told` — what an encoder has handed on and gathered

## Main results

* `GzipEncoder.lossless` — nothing is lost between encoder and decoder
-/

namespace DatalogStrata

open Gzip

namespace Gzip

theorem addToChecksum_append (register : UInt32) (bytes more : List UInt8) :
    addToChecksum register (bytes ++ more) = addToChecksum (addToChecksum register bytes) more :=
  List.foldl_append

/-- A header, blocks, and the trailer that belongs to their bytes. -/
theorem decode?_eq {blocks bytes : List UInt8} {written : List UInt8}
    (inflates : Inflates blocks bytes) {last : List UInt8} (whole : bytes ++ last = written) :
    decode? (header ++ blocks ++ lastBlock last ++
      trailer (addToChecksum emptyChecksum written) written.length) = some written := by
  generalize ending : trailer (addToChecksum emptyChecksum written) written.length = closing
  have byBytes : 8 ∣ (unpack closing).length := dvd_length_unpack closing
  obtain ⟨left, inflated, aligned⟩ := inflate?_lastBlock last byBytes
  have behind := dvd_length_unpack_append (lastBlock last) byBytes
  have content : inflate? (unpack (blocks ++ (lastBlock last ++ closing))) =
      some (written, left) := by
    rw [unpack_append, unpack_append, inflates _ behind, inflated, ← whole]
    rfl
  have start : (header ++ (blocks ++ (lastBlock last ++ closing))).take 4 = header.take 4 :=
    List.take_append_of_le_length (by decide)
  rw [List.append_assoc, List.append_assoc, decode?, List.drop_left, content]
  simp [start, ending, aligned, guard]

end Gzip

namespace GzipEncoder

/-- What has been handed on are blocks of some bytes behind the header, and the other bytes have
been gathered. -/
structure Told (encoder : GzipEncoder) (written handed : List UInt8) : Prop where
  blocks : ∃ blocks bytes, handed ++ encoder.opening.flatten = header ++ blocks ∧
    Inflates blocks bytes ∧ bytes ++ encoder.gathered = written
  register_eq : encoder.register = addToChecksum emptyChecksum written
  count_eq : encoder.count = written.length

theorem told {encoder : GzipEncoder} {written handed : List UInt8}
    (used : Compressor.Used encoder written handed) : encoder.Told written handed := by
  induction used with
  | start => exact ⟨⟨[], [], rfl, inflates_nil, rfl⟩, rfl, rfl⟩
  | write used more ih =>
    obtain ⟨⟨blocks, bytes, opened, inflates, whole⟩, register, count⟩ := ih
    refine ⟨⟨blocks, bytes, ?_, inflates, ?_⟩, ?_, ?_⟩
    · -- Once something was written, no header is left to be handed on.
      simpa [Compressor.write, write, opening] using opened
    · simp only [Compressor.write, write, ← whole, List.append_assoc]
    · simp only [Compressor.write, write, register, addToChecksum_append]
    · simp only [Compressor.write, write, count, List.length_append]
  | @flush encoder written handed used ih =>
    obtain ⟨⟨blocks, bytes, opened, inflates, whole⟩, register, count⟩ := ih
    refine ⟨⟨blocks ++ flushed encoder.gathered, bytes ++ encoder.gathered, ?_,
      inflates.append (inflates_flushed _), ?_⟩, register, count⟩
    · rw [← List.append_assoc, ← opened]
      simp [Compressor.flush, flush, opening]
    · rw [whole]
      exact List.append_nil written

/-- What an encoder hands on at its end completes a file that is decoded as what was written. -/
theorem decode?_close {encoder : GzipEncoder} {written handed : List UInt8}
    (used : Compressor.Used encoder written handed) :
    decode? (handed ++ encoder.close.flatten) = some written := by
  obtain ⟨⟨blocks, bytes, opened, inflates, whole⟩, register, count⟩ := told used
  have pieces : handed ++ encoder.close.flatten = handed ++ encoder.opening.flatten ++
      lastBlock encoder.gathered ++ trailer encoder.register encoder.count := by
    simp [close]
  rw [pieces, opened, register, count]
  exact decode?_eq inflates whole

theorem lossless : Compressor.Lossless GzipEncoder decode? where
  finish := decode?_close
  drop := decode?_close

/-- A short line, written in four pieces and flushed before the end. -/
example :
    let written := ["a", "\t", "1", "\n"].foldl
      (fun encoder text => (write encoder (bytesOf text)).2) Compressor.start
    (write Compressor.start []).1.flatten ++ (flush written).1.flatten ++
        (flush written).2.close.flatten =
      [0x1f, 0x8b, 8, 0, 0, 0, 0, 0, 0, 0xff, 0x4a, 0xe4, 0x34, 0xe4, 2, 0, 0, 0, 0xff, 0xff,
        3, 0, 0x59, 0x9a, 0x87, 0x8b, 4, 0, 0, 0] := by
  decide +kernel

end GzipEncoder

end DatalogStrata
