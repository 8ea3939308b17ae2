import DatalogStrata.Text

/-!
# White space

The blanks of all scripts, tabs and line ends: the characters with the Unicode property White_Space.

## Main definitions

* `isWhiteSpace` — the class of characters
* `trim` — a text without the white space at its ends
-/

namespace DatalogStrata

/-- The white space, as closed ranges that ascend. -/
def whiteSpaceRanges : List (Nat × Nat) :=
  [(0x09, 0x0D), (0x20, 0x20), (0x85, 0x85), (0xA0, 0xA0), (0x1680, 0x1680), (0x2000, 0x200A),
    (0x2028, 0x2029), (0x202F, 0x202F), (0x205F, 0x205F), (0x3000, 0x3000)]

/-- Whether a character is white space. -/
def isWhiteSpace (c : Char) : Bool :=
  isWithin whiteSpaceRanges c

/-- A text without the white space at its two ends. -/
def trim (text : List Char) : List Char :=
  ((text.dropWhile isWhiteSpace).reverse.dropWhile isWhiteSpace).reverse

end DatalogStrata
