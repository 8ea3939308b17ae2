import DatalogStrata.Gzip.Decoder
import DatalogStrata.Proofs.Gzip.Bits

/-!
# Blocks read back

A block of bytes by their codes is read as these bytes, up to where it ends. Behind a block that was
flushed reading goes on with the next byte.

## Main definitions

* `Gzip.Inflates` — bytes are read as the blocks of others, whatever follows

## Main results

* `Gzip.codes?_codeOf` — the code of a byte
* `Gzip.block?_block` — a block of bytes by their codes
* `Gzip.inflates_flushed`, `Gzip.inflate?_lastBlock` — blocks that are handed on
-/

namespace DatalogStrata.Gzip

/-! ## Codes -/

theorem lowBits_seven (value : Nat) :
    lowBits 7 value = [value.testBit 0, value.testBit 1, value.testBit 2, value.testBit 3,
      value.testBit 4, value.testBit 5, value.testBit 6] := rfl

/-- A code of eight bits begins with the highest seven. -/
theorem codes?_eight {value : Nat} (low : 48 ≤ value) (high : value < 192) (rest : List Bool) :
    codes? ((lowBits 8 value).reverse ++ rest) =
      (codes? rest).map fun (bytes, rest) => (UInt8.ofNat (value - 48) :: bytes, rest) := by
  have seven := ofBits_lowBits 7 (value / 2)
  rw [lowBits_seven, Nat.mod_eq_of_lt (by omega)] at seven
  rw [lowBits_succ, lowBits_seven]
  simp only [List.reverse_cons, List.reverse_nil, List.nil_append, List.cons_append, codes?, seven,
    two_mul_half_add]
  rw [if_neg (by omega), if_pos ⟨low, high⟩]

/-- A code of nine bits is not taken for a shorter one. -/
theorem codes?_nine {value : Nat} (low : 400 ≤ value) (high : value < 512) (rest : List Bool) :
    codes? ((lowBits 9 value).reverse ++ rest) =
      (codes? rest).map fun (bytes, rest) => (UInt8.ofNat (value - 256) :: bytes, rest) := by
  have seven := ofBits_lowBits 7 (value / 2 / 2)
  rw [lowBits_seven, Nat.mod_eq_of_lt (by omega)] at seven
  rw [lowBits_succ, lowBits_succ, lowBits_seven]
  simp only [List.reverse_cons, List.reverse_nil, List.nil_append, List.cons_append, codes?, seven,
    two_mul_half_add]
  rw [if_neg (by omega), if_neg (by omega), if_pos low]

/-- The code of a byte is read as the byte. -/
theorem codes?_codeOf (byte : UInt8) (rest : List Bool) :
    codes? (codeOf byte ++ rest) =
      (codes? rest).map fun (bytes, rest) => (byte :: bytes, rest) := by
  have small := byte.toNat_lt
  rw [codeOf]
  split
  case isTrue low =>
    rw [codes?_eight (by omega) (by omega), Nat.add_sub_cancel_left, UInt8.ofNat_toNat]
  case isFalse high =>
    rw [codes?_nine (by omega) (by omega), Nat.add_sub_cancel_left, UInt8.ofNat_toNat]

theorem codes?_endCode (rest : List Bool) : codes? (endCode ++ rest) = some ([], rest) := by
  rw [codes?.eq_def]
  rfl

theorem codes?_flatMap_codeOf (bytes : List UInt8) (rest : List Bool) :
    codes? (bytes.flatMap codeOf ++ (endCode ++ rest)) = some (bytes, rest) := by
  induction bytes with
  | nil => exact codes?_endCode rest
  | cons byte bytes ih =>
    rw [List.flatMap_cons, List.append_assoc, codes?_codeOf, ih]
    rfl

/-! ## Blocks -/

theorem block?_block (last : Bool) (bytes : List UInt8) (rest : List Bool) :
    block? (block last bytes ++ rest) = some (last, bytes, rest) := by
  simp [block, block?, codes?_flatMap_codeOf]

/-- The end of a flush is read as an empty block. -/
theorem block?_empty {left : List Bool} (few : left.length < 8) {rest : List Bool}
    (whole : 8 ∣ rest.length) :
    block? ([false, false, false] ++ (left ++ (unpack [0, 0, 0xff, 0xff] ++ rest))) =
      some (false, [], rest) := by
  have bytes : 8 ∣ (unpack [0, 0, 0xff, 0xff] ++ rest).length := dvd_length_unpack_append _ whole
  have empty : stored? (unpack [0, 0, 0xff, 0xff] ++ rest) = some ([], rest) := by
    have bits : unpack [0, 0, 0xff, 0xff] = List.replicate 16 false ++ List.replicate 16 true := by
      decide
    rw [bits]
    simp [stored?, ofBits, List.replicate, pack]
  simp only [List.cons_append, List.nil_append, block?, align_append few bytes, empty]
  rfl

theorem inflate?_of_block {bits rest : List Bool} {bytes : List UInt8}
    (first : block? bits = some (false, bytes, rest)) (shorter : rest.length < bits.length) :
    inflate? bits = (inflate? rest).map fun (more, rest) => (bytes ++ more, rest) := by
  rw [inflate?, first]
  simp [shorter]

theorem inflate?_of_last {bits rest : List Bool} {bytes : List UInt8}
    (only : block? bits = some (true, bytes, rest)) : inflate? bits = some (bytes, rest) := by
  rw [inflate?, only]

/-! ## Pieces that are handed on -/

/-- Bytes are read as the blocks of others, whatever whole bytes follow. -/
def Inflates (handed bytes : List UInt8) : Prop :=
  ∀ rest, 8 ∣ rest.length → inflate? (unpack handed ++ rest) =
    (inflate? rest).map fun (more, rest) => (bytes ++ more, rest)

theorem inflates_nil : Inflates [] [] := by
  intro rest whole
  simp [unpack]

theorem Inflates.append {handed bytes next more : List UInt8} (first : Inflates handed bytes)
    (second : Inflates next more) : Inflates (handed ++ next) (bytes ++ more) := by
  intro rest whole
  have behind : 8 ∣ (unpack next ++ rest).length := dvd_length_unpack_append next whole
  rw [unpack_append, List.append_assoc, first _ behind, second _ whole, Option.map_map]
  simp [Function.comp_def]

/-- A flush is read as a block of bytes and an empty one. -/
theorem inflates_flushed (bytes : List UInt8) : Inflates (flushed bytes) bytes := by
  intro rest whole
  generalize split : List.replicate (padding (block false bytes ++ [false, false, false])) false =
    left
  have few : left.length < 8 := by
    rw [← split, List.length_replicate]
    exact padding_lt _
  have first := block?_block false bytes
    ([false, false, false] ++ (left ++ (unpack [0, 0, 0xff, 0xff] ++ rest)))
  have second := block?_empty few whole
  rw [flushed, unpack_append, unpack_pack_fill, split]
  simp only [List.append_assoc]
  -- Both blocks take up some bits, and then the decoder goes on behind them.
  rw [inflate?_of_block first (by simp [block, endCode]; omega),
    inflate?_of_block second (by simp; omega)]
  simp

/-- The last block is read as its bytes, and what follows it can be found. -/
theorem inflate?_lastBlock (bytes : List UInt8) {rest : List Bool} (whole : 8 ∣ rest.length) :
    ∃ left, inflate? (unpack (lastBlock bytes) ++ rest) = some (bytes, left) ∧
      align left = rest := by
  rw [lastBlock, unpack_pack_fill, List.append_assoc]
  refine ⟨_, inflate?_of_last (block?_block true bytes _), align_append ?_ whole⟩
  rw [List.length_replicate]
  exact padding_lt _

end DatalogStrata.Gzip
