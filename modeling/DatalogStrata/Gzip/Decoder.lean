import DatalogStrata.Gzip.Encoder

/-!
# A decoder for gzip

The decoder reads block after block until the last one, and compares check sum and number with what
it has read. It knows blocks with fixed codes, but for the codes of repetitions, and blocks without
codes. What follows the trailer does not matter.

## Main definitions

* `Gzip.codes?` — bytes by their codes, up to the end of a block
* `Gzip.stored?` — bytes without codes
* `Gzip.inflate?` — a stream of blocks
* `Gzip.decode?` — the content of a compressed file
-/

namespace DatalogStrata.Gzip

/-- Bytes by their codes up to the end of the block, and the bits that follow. The shortest codes
have seven bits, and the longest have nine. -/
def codes? : List Bool → Option (List UInt8 × List Bool)
  | a :: b :: c :: d :: e :: f :: g :: rest =>
    let seven := ofBits [g, f, e, d, c, b, a]
    if seven = 0 then some ([], rest)
    else
      match rest with
      | [] => none
      | h :: rest =>
        let eight := 2 * seven + h.toNat
        if 48 ≤ eight ∧ eight < 192 then
          (codes? rest).map fun (bytes, rest) => (UInt8.ofNat (eight - 48) :: bytes, rest)
        else
          match rest with
          | [] => none
          | i :: rest =>
            let nine := 2 * eight + i.toNat
            if 400 ≤ nine then
              (codes? rest).map fun (bytes, rest) => (UInt8.ofNat (nine - 256) :: bytes, rest)
            else none
  | _ => none

/-- Bytes without codes, behind their number and its complement, and the bits that follow. -/
def stored? (bits : List Bool) : Option (List UInt8 × List Bool) :=
  let number := bits.take 16
  let length := 8 * ofBits number
  let rest := bits.drop 32
  if (bits.drop 16).take 16 = number.map not ∧ length ≤ rest.length then
    some (pack (rest.take length), rest.drop length)
  else none

/-- A block: whether it is the last one, its bytes, and the bits that follow. -/
def block? : List Bool → Option (Bool × List UInt8 × List Bool)
  | last :: false :: false :: rest => (stored? (align rest)).map fun read => (last, read)
  | last :: true :: false :: rest => (codes? rest).map fun read => (last, read)
  | _ => none

/-- The bytes of all blocks up to the last one, and the bits that follow. -/
def inflate? (bits : List Bool) : Option (List UInt8 × List Bool) :=
  match block? bits with
  | none => none
  | some (true, bytes, rest) => some (bytes, rest)
  | some (false, bytes, rest) =>
    -- A block takes up some bits.
    if rest.length < bits.length then
      (inflate? rest).map fun (more, rest) => (bytes ++ more, rest)
    else none
termination_by bits.length

/-- The content of a compressed file. Of the header only the format and the method matter. -/
def decode? (bytes : List UInt8) : Option (List UInt8) := do
  guard (bytes.take 4 = header.take 4 ∧ header.length ≤ bytes.length)
  let (content, rest) ← inflate? (unpack (bytes.drop header.length))
  let trailer := trailer (addToChecksum emptyChecksum content) content.length
  guard ((unpack trailer).isPrefixOf (align rest))
  return content

end DatalogStrata.Gzip
