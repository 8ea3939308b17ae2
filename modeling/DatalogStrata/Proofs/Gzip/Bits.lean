import DatalogStrata.Gzip.Bits
import Mathlib.Algebra.Group.Nat.Defs
import Mathlib.Data.List.Basic

/-!
# Bits and bytes

Bits that make up whole bytes can be read back from the bytes. Bits that do not are filled up first,
and reading goes on behind what they were filled up with.

## Main results

* `Gzip.ofBits_lowBits`, `Gzip.lowBits_ofBits` — numbers and their bits
* `Gzip.unpack_pack_fill` — the bits of bytes that were made up of bits
* `Gzip.align_append` — where reading goes on
-/

namespace DatalogStrata.Gzip

/-! ## Numbers -/

theorem toNat_testBit_zero (value : Nat) : (value.testBit 0).toNat = value % 2 := by
  rw [Nat.testBit_zero]
  rcases Nat.mod_two_eq_zero_or_one value with even | odd <;> simp [*]

/-- A number is made up of its half and its lowest bit. -/
theorem two_mul_half_add (value : Nat) : 2 * (value / 2) + (value.testBit 0).toNat = value := by
  rw [toNat_testBit_zero, Nat.div_add_mod]

theorem lowBits_succ (count value : Nat) :
    lowBits (count + 1) value = value.testBit 0 :: lowBits count (value / 2) := by
  simp [lowBits, List.range_succ_eq_map, Nat.testBit_succ]

@[simp] theorem length_lowBits (count value : Nat) : (lowBits count value).length = count := by
  simp [lowBits]

/-- The lowest bits of a number make up what is left of it. -/
theorem ofBits_lowBits (count : Nat) :
    ∀ value, ofBits (lowBits count value) = value % 2 ^ count := by
  induction count with
  | zero =>
    intro value
    simp [lowBits, ofBits, Nat.mod_one]
  | succ count ih =>
    intro value
    rw [lowBits_succ, ofBits, ih, toNat_testBit_zero, Nat.pow_succ', Nat.mod_mul]

theorem ofBits_lt (bits : List Bool) : ofBits bits < 2 ^ bits.length := by
  induction bits with
  | nil => simp [ofBits]
  | cons bit bits ih =>
    have small := Bool.toNat_lt bit
    rw [ofBits, List.length_cons, Nat.pow_succ']
    omega

/-- Bits can be told from the number that they make up. -/
theorem lowBits_ofBits (bits : List Bool) : lowBits bits.length (ofBits bits) = bits := by
  induction bits with
  | nil => rfl
  | cons bit bits ih =>
    have first : (bit.toNat + 2 * ofBits bits).testBit 0 = bit := by
      cases bit <;> simp [Nat.testBit_zero, Nat.add_mod]
    have others : (bit.toNat + 2 * ofBits bits) / 2 = ofBits bits := by
      have := Bool.toNat_lt bit
      omega
    rw [List.length_cons, ofBits, lowBits_succ, first, others, ih]

/-! ## Bytes -/

@[simp] theorem length_bitsOf (byte : UInt8) : (bitsOf byte).length = 8 :=
  length_lowBits ..

@[simp] theorem unpack_append (bytes more : List UInt8) :
    unpack (bytes ++ more) = unpack bytes ++ unpack more :=
  List.flatMap_append

theorem length_unpack (bytes : List UInt8) : (unpack bytes).length = 8 * bytes.length := by
  induction bytes with
  | nil => rfl
  | cons byte bytes ih =>
    rw [unpack, List.flatMap_cons, ← unpack, List.length_append, ih, length_bitsOf,
      List.length_cons]
    omega

theorem dvd_length_unpack (bytes : List UInt8) : 8 ∣ (unpack bytes).length :=
  ⟨bytes.length, length_unpack bytes⟩

theorem dvd_length_unpack_append (bytes : List UInt8) {rest : List Bool} (whole : 8 ∣ rest.length) :
    8 ∣ (unpack bytes ++ rest).length := by
  rw [List.length_append]
  exact Nat.dvd_add (dvd_length_unpack bytes) whole

/-- Eight bits are the bits of the byte that they make up. -/
theorem bitsOf_ofBits {bits : List Bool} (eight : bits.length = 8) :
    bitsOf (UInt8.ofNat (ofBits bits)) = bits := by
  have small := ofBits_lt bits
  rw [eight] at small
  rw [bitsOf, UInt8.toNat_ofNat_of_lt' small, ← eight, lowBits_ofBits]

/-- Bits that make up whole bytes are the bits of these bytes. -/
theorem unpack_pack (bits : List Bool) (whole : 8 ∣ bits.length) : unpack (pack bits) = bits := by
  induction bits using pack.induct with
  | case1 a b c d e f g h rest ih =>
    have eight : [a, b, c, d, e, f, g, h].length = 8 := rfl
    have others : 8 ∣ rest.length := by
      simp only [List.length_cons] at whole
      omega
    rw [pack, unpack, List.flatMap_cons, ← unpack, ih others, bitsOf_ofBits eight]
    rfl
  | case2 bits short =>
    -- Between one and seven bits do not make up a byte, and eight would have been a case before.
    rcases bits with
      _ | ⟨a, _ | ⟨b, _ | ⟨c, _ | ⟨d, _ | ⟨e, _ | ⟨f, _ | ⟨g, _ | ⟨h, rest⟩⟩⟩⟩⟩⟩⟩⟩
    case nil => rfl
    case cons.cons.cons.cons.cons.cons.cons.cons =>
      exact absurd rfl (short a b c d e f g h rest)
    all_goals simp at whole

/-! ## Filling up -/

/-- The number of bits that the last byte is short of. -/
def padding (bits : List Bool) : Nat :=
  (8 - bits.length % 8) % 8

theorem padding_lt (bits : List Bool) : padding bits < 8 :=
  Nat.mod_lt _ (by decide)

theorem unpack_pack_fill (bits : List Bool) :
    unpack (pack (fill bits)) = bits ++ List.replicate (padding bits) false := by
  refine unpack_pack _ ?_
  rw [fill, List.length_append, List.length_replicate]
  omega

/-- What a byte was filled up with is left out, and nothing of the whole bytes behind it. -/
theorem align_append {left whole : List Bool} (few : left.length < 8) (bytes : 8 ∣ whole.length) :
    align (left ++ whole) = whole := by
  have here : (left ++ whole).length % 8 = left.length := by
    rw [List.length_append]
    omega
  rw [align, here, List.drop_left]

end DatalogStrata.Gzip
