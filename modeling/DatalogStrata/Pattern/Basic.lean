import DatalogStrata.Pattern.Nesting
import DatalogStrata.Text.Alphanumeric
import DatalogStrata.Text.WhiteSpace

/-!
# Patterns as they are read

A pattern is a regular expression: a sequence of items, which are characters, escapes, classes in
brackets and groups in parentheses. `*`, `+` and `?` repeat the item before them, and `|` separates
alternatives. Flags are switched for the rest of a group by `(?i)`, or for a group by `(?i:`.

Here is what an automaton remembers while it reads a pattern, and what it sees when it looks ahead.

## Main definitions

* `Pattern.Flags` — what can be switched on and off
* `Pattern.Stage`, `Pattern.Reader` — the states of the automaton
* `Pattern.isAhead`, `Pattern.namedClass?` — looking ahead
-/

namespace DatalogStrata.Pattern

/-- What can be switched on and off in a pattern and bears on its form. -/
structure Flags where
  /-- White space and comments between items are skipped. -/
  spaced : Bool
  /-- Letters stand for both cases. -/
  caseless : Bool
  /-- Classes and escapes speak of characters and not of bytes. -/
  unicode : Bool
deriving DecidableEq, Repr

namespace Flags

/-- The flags at the beginning of a pattern. -/
def standard : Flags :=
  ⟨false, false, true⟩

/-- Switch a flag by its letter. The other flags change what matches but not what is well formed. -/
def switch? (flags : Flags) (letter : Char) (value : Bool) : Option Flags :=
  if letter = 'x' then some { flags with spaced := value }
  else if letter = 'i' then some { flags with caseless := value }
  else if letter = 'u' then some { flags with unicode := value }
  else if letter ∈ ['m', 's', 'R', 'U'] then some flags
  else none

end Flags

/-- Where in a pattern a character or an escape stands. -/
inductive Place where
  /-- Among the items of a group. -/
  | group
  /-- Among the items of a class. -/
  | bracket
  /-- At the end of a range; it begins with a character or, wrongly, with a class. -/
  | rangeEnd (low : Option Nat)
deriving DecidableEq, Repr

/-- What the automaton is inside of. -/
inductive Stage where
  /-- Where an item may begin. -/
  | item
  /-- After an opening parenthesis. -/
  | opened
  /-- After a question mark that follows an opening parenthesis. -/
  | question
  /-- After the `P` of a named group. -/
  | named
  /-- In the name of a group, whose letters stand in reverse. -/
  | name (letters : List Char)
  /-- Among flags: those that result, those already mentioned, whether they are switched off, and
  whether none has followed the minus sign yet. -/
  | flags (result : Flags) (mentioned : List Char) (off : Bool) (dangling : Bool)
  /-- After a backslash. -/
  | escape (place : Place)
  /-- In an escape with some hexadecimal digits still to come; two digits may stand for a byte. -/
  | hex (place : Place) (byte : Bool) (remaining : Nat) (value : Nat)
  /-- After an opening bracket. -/
  | classOpened
  /-- At the beginning of a class, where a closing bracket stands for itself. -/
  | classStart
  /-- After minus signs at the beginning of a class, which stand for themselves. -/
  | classDashes
  /-- Where an item of a class may begin. -/
  | classItem
  /-- After an item of a class with which a range may begin, rightly if it is a character. -/
  | classAfter (low : Option Nat)
  /-- In a range of a class, after the minus sign. -/
  | classRange (low : Option Nat)
deriving DecidableEq, Repr

/-- Whether white space and comments may be skipped. -/
def Stage.skips : Stage → Bool
  | item | opened | hex .. | classOpened | classStart | classDashes | classItem | classAfter _
  | classRange _ => true
  | question | named | name _ | flags .. | escape _ => false

/-- What is outside of an open group. -/
structure Outside where
  flags : Flags
  read : Alternatives
deriving DecidableEq, Repr

/-- The automaton. -/
structure Reader where
  stage : Stage
  flags : Flags
  /-- What has been read of the innermost open group. -/
  read : Alternatives
  /-- What is outside of each open group, the innermost first. -/
  groups : List Outside
  /-- What has been read of the open classes, the innermost first. -/
  classes : List Members
  /-- The names of groups, whose letters stand in reverse. -/
  names : List (List Char)
  /-- Whether a comment is being skipped. -/
  comment : Bool
  /-- How many of the next characters have already been looked at. -/
  passing : Nat
deriving DecidableEq, Repr

/-- The automaton before the first character. -/
def Reader.start : Reader :=
  ⟨.item, .standard, .empty, [], [], [], false, 0⟩

/-- Whether a character comes next. -/
def isNext (c : Char) (rest : List Char) : Bool :=
  rest.head? = some c

/-- The next character, where white space and the sign of a comment may be overlooked. The text of
the comment is not. -/
def ahead (flags : Flags) (rest : List Char) : Option Char :=
  if flags.spaced then
    let visible := match rest.dropWhile isWhiteSpace with
      | '#' :: more => more.dropWhile isWhiteSpace
      | more => more
    if visible.isEmpty then rest.head? else visible.head?
  else
    rest.head?

/-- The names of classes of characters. -/
def classNames : List String :=
  ["alnum", "alpha", "ascii", "blank", "cntrl", "digit", "graph", "lower", "print", "punct",
    "space", "upper", "word", "xdigit"]

/-- A class by its name between colons, as it stands after an opening bracket: whether it is turned
into its opposite, and how many characters write it. -/
def namedClass? (rest : List Char) : Option (Bool × Nat) :=
  match rest with
  | ':' :: text =>
    let opposite := isNext '^' text
    let body := if opposite then text.drop 1 else text
    let name := body.takeWhile (· ≠ ':')
    if (body.drop name.length).take 2 = [':', ']'] && String.ofList name ∈ classNames then
      some (opposite, (if opposite then 4 else 3) + name.length)
    else
      none
  | _ => none

end DatalogStrata.Pattern
