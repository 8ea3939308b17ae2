/-!
# Log records

A record has a level, the part of the tool that it comes from, and a text. On the console it is a
line that begins with level and part; characters that could steer a terminal are spelled out.

## Main definitions

* `Level`, `Source`, `Record` — a record
* `Record.consoleLine` — a record as it stands on the console
-/

namespace DatalogStrata

/-- How much a record matters. -/
inductive Level where
  | debug
  | info
  | warn
  | error
deriving DecidableEq, Repr

namespace Level

/-- The name of a level. -/
def text : Level → String
  | debug => "DEBUG"
  | info => "INFO"
  | warn => "WARN"
  | error => "ERROR"

/-- How much must be asked for before records of a level are shown: errors first, debugging
last. -/
def verbosity : Level → Nat
  | error => 1
  | warn => 2
  | info => 3
  | debug => 4

end Level

/-- The part of the tool that a record comes from. -/
inductive Source where
  | program
  | precedence
  | strata
  | diagram
  | batch
  | tool
deriving DecidableEq, Repr

/-- The name of a part in the log. -/
def Source.label : Source → String
  | program => "ast::program"
  | precedence => "stratifier::precedence_graph"
  | strata => "stratifier::stratifier"
  | diagram => "stratifier::render"
  | batch => "common::formatter"
  | tool => "stratifier"

/-- A record of the log. -/
structure Record where
  level : Level
  source : Source
  text : String
deriving DecidableEq, Repr

namespace Record

/-- The name of the only field of a record, its text. -/
def fieldName : String := "message"

/-- The level and the text. -/
def leveled (record : Record) : String :=
  record.level.text ++ " " ++ record.text

/-- Whether a record is at least as important as a level. -/
def atLeast (level : Level) (record : Record) : Bool :=
  record.level.verbosity ≤ level.verbosity

/-- A number in hexadecimal digits. -/
def hexadecimal (value : Nat) : List Char :=
  Nat.toDigits 16 value

/-- A character as it may stand on a terminal. Those that start, end or make up control sequences
are spelled by their number. -/
def visible (c : Char) : List Char :=
  if c.toNat ∈ [0x07, 0x08, 0x0c] then "\\x0".toList ++ hexadecimal c.toNat
  else if c.toNat ∈ [0x1b, 0x7f] then "\\x".toList ++ hexadecimal c.toNat
  else if 0x80 ≤ c.toNat ∧ c.toNat ≤ 0x9f then
    "\\u\x7b".toList ++ hexadecimal c.toNat ++ ['\x7d']
  else [c]

/-- The record as a line of the console. -/
def consoleLine (record : Record) : String :=
  record.level.text ++ " " ++ record.source.label ++ ": " ++
    String.ofList (record.text.toList.flatMap visible) ++ "\n"

end Record

end DatalogStrata
