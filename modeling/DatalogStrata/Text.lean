/-!
# Text

What listings and paths are made of: lines, rules below titles, texts joined and texts cut, and the
characters in them.

## Main definitions

* `line`, `rule`, `concat`, `commaSeparated` — putting texts together
* `splitAt` — the pieces of a text between separators
* `replaceChar` — a text with a character replaced
* `hexValue?`, `digitsValue`, `isWithin` — characters by their value and by ranges
-/

namespace DatalogStrata

/-- A text with a line end. -/
def line (text : String) : String :=
  text ++ "\n"

/-- A row of one character, as it stands below a title. -/
def rule (length : Nat) (c : Char) : String :=
  String.ofList (List.replicate length c)

/-- The texts one after another. -/
def concat (texts : List String) : String :=
  texts.foldr (· ++ ·) ""

/-- The texts with a comma and a blank between neighbours. -/
def commaSeparated (texts : List String) : String :=
  ", ".intercalate texts

/-- Cut a text at every separator. There is one piece more than there are separators. -/
def splitAt (separator : Char) : List Char → List (List Char)
  | [] => [[]]
  | c :: rest =>
    if c = separator then
      [] :: splitAt separator rest
    else
      match splitAt separator rest with
      | [] => [[c]]
      | piece :: more => (c :: piece) :: more

/-- Put a text in the place of every occurrence of a character. -/
def replaceChar (c : Char) (replacement : List Char) (text : List Char) : List Char :=
  text.flatMap fun d => if d = c then replacement else [d]

/-- The value of a hexadecimal digit. -/
def hexValue? (c : Char) : Option Nat :=
  if c.isDigit then some (c.toNat - '0'.toNat)
  else if 'a' ≤ c ∧ c ≤ 'f' then some (c.toNat - 'a'.toNat + 10)
  else if 'A' ≤ c ∧ c ≤ 'F' then some (c.toNat - 'A'.toNat + 10)
  else none

/-- The value of a list of decimal digits. -/
def digitsValue (digits : List Char) : Nat :=
  digits.foldl (fun value digit => 10 * value + (digit.toNat - '0'.toNat)) 0

/-- Whether a character lies in one of some closed ranges of code points. -/
def isWithin (ranges : List (Nat × Nat)) (c : Char) : Bool :=
  ranges.any fun range => range.1 ≤ c.toNat && c.toNat ≤ range.2

end DatalogStrata
