/-!
# Bits of bytes

A stream of bytes is read as a stream of bits, of each byte the lowest bit first. What does not end
with a byte is filled up with zeros, and reading goes on at the next byte.

## Main definitions

* `Gzip.bitsOf`, `Gzip.unpack` — the bits of bytes
* `Gzip.pack` — the bytes that bits make up
* `Gzip.fill`, `Gzip.align` — fill up a byte, and leave out what it was filled up with
-/

namespace DatalogStrata.Gzip

/-- The number that bits make up, the lowest first. -/
def ofBits : List Bool → Nat
  | [] => 0
  | bit :: bits => bit.toNat + 2 * ofBits bits

/-- The lowest bits of a number, the lowest first. -/
def lowBits (count value : Nat) : List Bool :=
  (List.range count).map value.testBit

/-- The bits of a byte. -/
def bitsOf (byte : UInt8) : List Bool :=
  lowBits 8 byte.toNat

/-- The bits of bytes, one byte after another. -/
def unpack (bytes : List UInt8) : List Bool :=
  bytes.flatMap bitsOf

/-- The bytes that bits make up. Bits that do not make up a byte are left out. -/
def pack : List Bool → List UInt8
  | a :: b :: c :: d :: e :: f :: g :: h :: rest =>
    UInt8.ofNat (ofBits [a, b, c, d, e, f, g, h]) :: pack rest
  | _ => []

/-- Fill up the last byte. -/
def fill (bits : List Bool) : List Bool :=
  bits ++ List.replicate ((8 - bits.length % 8) % 8) false

/-- Leave out what is left of a byte. What comes behind it are whole bytes. -/
def align (bits : List Bool) : List Bool :=
  bits.drop (bits.length % 8)

end DatalogStrata.Gzip
