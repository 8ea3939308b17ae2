import DatalogStrata.Json.Basic
import DatalogStrata.Text

/-!
# JSON tokens

The reader of tokens is an automaton that takes one character at a time. Between tokens it skips
blanks, tabs and line ends; a word or a number ends before the first character that cannot
continue it, and that character is then read afresh.

## Main definitions

* `Json.Token` — punctuation, scalars and strings
* `Json.NumberStage` — how far a number has been read
* `Json.Mode`, `Json.Scanner` — the states of the automaton
* `Json.scan?` — the tokens of a text, or none if the text is malformed
-/

namespace DatalogStrata.Json

/-- A token of a JSON text. -/
inductive Token where
  | openBrace
  | closeBrace
  | openBracket
  | closeBracket
  | comma
  | colon
  | null
  | bool (value : Bool)
  | number (value : Number)
  | string (content : List Piece)
deriving DecidableEq, Repr

/-- How far a number has been read. -/
inductive NumberStage where
  /-- After the minus sign. -/
  | sign
  /-- After a leading zero, which no digit may follow. -/
  | zero
  /-- In the digits before the point. -/
  | whole
  /-- After the point. -/
  | point
  /-- In the digits after the point. -/
  | fraction
  /-- After the `e` of an exponent. -/
  | mark
  /-- After the sign of an exponent. -/
  | markSign
  /-- In the digits of an exponent. -/
  | exponent
deriving DecidableEq, Repr

namespace NumberStage

/-- The stage after one more character, if that character continues the number. -/
def next? (stage : NumberStage) (c : Char) : Option NumberStage :=
  match stage with
  | sign => if c = '0' then some zero else if c.isDigit then some whole else none
  | zero => afterWhole c
  | whole => if c.isDigit then some whole else afterWhole c
  | point => if c.isDigit then some fraction else none
  | fraction => if c.isDigit then some fraction else afterFraction c
  | mark => if c = '+' ∨ c = '-' then some markSign else if c.isDigit then some exponent else none
  | markSign => if c.isDigit then some exponent else none
  | exponent => if c.isDigit then some exponent else none
where
  /-- After the digits before the point, a point or an exponent may come. -/
  afterWhole (c : Char) : Option NumberStage :=
    if c = '.' then some point else afterFraction c
  /-- After the digits after the point, an exponent may come. -/
  afterFraction (c : Char) : Option NumberStage :=
    if c = 'e' ∨ c = 'E' then some mark else none

/-- Whether the number may end here. -/
def complete : NumberStage → Bool
  | zero | whole | fraction | exponent => true
  | sign | point | mark | markSign => false

/-- Whether neither fraction nor exponent has begun. -/
def isWhole : NumberStage → Bool
  | zero | whole => true
  | _ => false

end NumberStage

/-- The number with a given spelling, read up to a given stage. A minus sign before zero makes a
number that is not whole. -/
def Number.ofSpelling (stage : NumberStage) (spelling : List Char) : Number :=
  if stage.isWhole then
    match spelling with
    | '-' :: digits =>
      if digitsValue digits = 0 then .other spelling else .whole (-(digitsValue digits : Int))
    | digits => .whole (digitsValue digits)
  else
    .other spelling

/-- What the automaton is inside of. Characters read so far stand in reverse. -/
inductive Mode where
  | between
  | word (letters : List Char)
  | number (stage : NumberStage) (spelling : List Char)
  | string (content : List Piece)
  /-- In a string, after a backslash. -/
  | escape (content : List Piece)
  /-- In a string, with some hexadecimal digits of a code unit still to come. -/
  | hex (remaining : Nat) (unit : Nat) (content : List Piece)
deriving DecidableEq, Repr

/-- The automaton: its mode, and the tokens already read, in reverse. -/
structure Scanner where
  mode : Mode
  tokens : List Token
deriving DecidableEq, Repr

/-- The characters that may stand between tokens. -/
def isBlank (c : Char) : Bool :=
  c = ' ' || c = '\n' || c = '\t' || c = '\r'

/-- The character that a one-letter escape stands for. -/
def escaped? (c : Char) : Option Char :=
  if c = '"' then some '"'
  else if c = '\\' then some '\\'
  else if c = '/' then some '/'
  else if c = 'b' then some '\x08'
  else if c = 'f' then some '\x0c'
  else if c = 'n' then some '\n'
  else if c = 'r' then some '\r'
  else if c = 't' then some '\t'
  else none

/-- Whether a code unit is the first of a surrogate pair. -/
def isHighSurrogate (unit : Nat) : Bool :=
  0xD800 ≤ unit && unit ≤ 0xDBFF

/-- Whether a code unit is the second of a surrogate pair. -/
def isLowSurrogate (unit : Nat) : Bool :=
  0xDC00 ≤ unit && unit ≤ 0xDFFF

/-- Add a code unit to reversed string content; a pair of surrogates makes one character. -/
def addUnit (unit : Nat) (content : List Piece) : List Piece :=
  if isLowSurrogate unit then
    match content with
    | .surrogate high :: rest =>
      -- Two low surrogates in a row are no pair, so the first must be a high one.
      if isHighSurrogate high then
        .char (Char.ofNat (0x10000 + (high - 0xD800) * 0x400 + (unit - 0xDC00))) :: rest
      else
        .surrogate unit :: content
    | _ => .surrogate unit :: content
  else if isHighSurrogate unit then
    .surrogate unit :: content
  else
    .char (Char.ofNat unit) :: content

/-- The token that a word is. -/
def word? (letters : List Char) : Option Token :=
  if letters = "null".toList then some .null
  else if letters = "true".toList then some (.bool true)
  else if letters = "false".toList then some (.bool false)
  else none

namespace Scanner

/-- The automaton before the first character. -/
def start : Scanner :=
  ⟨.between, []⟩

/-- Add a token and go on between tokens. -/
def emit (scanner : Scanner) (token : Token) : Scanner :=
  ⟨.between, token :: scanner.tokens⟩

/-- Take a character between tokens. -/
def begin? (scanner : Scanner) (c : Char) : Option Scanner :=
  if isBlank c then some scanner
  else if c = '\x7b' then some (scanner.emit .openBrace)
  else if c = '\x7d' then some (scanner.emit .closeBrace)
  else if c = '[' then some (scanner.emit .openBracket)
  else if c = ']' then some (scanner.emit .closeBracket)
  else if c = ',' then some (scanner.emit .comma)
  else if c = ':' then some (scanner.emit .colon)
  else if c = '"' then some { scanner with mode := .string [] }
  else if c = '-' then some { scanner with mode := .number .sign ['-'] }
  else if c = '0' then some { scanner with mode := .number .zero ['0'] }
  else if c.isDigit then some { scanner with mode := .number .whole [c] }
  else if c.isAlpha then some { scanner with mode := .word [c] }
  else none

/-- End the word or number being read, if any; a string cannot end this way. -/
def settle? (scanner : Scanner) : Option Scanner :=
  match scanner.mode with
  | .between => some scanner
  | .word letters => (word? letters.reverse).map scanner.emit
  | .number stage spelling =>
    if stage.complete then
      some (scanner.emit (.number (.ofSpelling stage spelling.reverse)))
    else
      none
  | .string _ | .escape _ | .hex .. => none

/-- Take one character. -/
def step? (scanner : Scanner) (c : Char) : Option Scanner :=
  match scanner.mode with
  | .between => scanner.begin? c
  | .word letters =>
    if c.isAlpha then some { scanner with mode := .word (c :: letters) }
    -- The word has ended; the character that ended it begins something new.
    else scanner.settle?.bind (·.begin? c)
  | .number stage spelling =>
    match stage.next? c with
    | some stage => some { scanner with mode := .number stage (c :: spelling) }
    | none => scanner.settle?.bind (·.begin? c)
  | .string content =>
    if c = '"' then some (scanner.emit (.string content.reverse))
    else if c = '\\' then some { scanner with mode := .escape content }
    -- Control characters must be written as escapes.
    else if c.toNat < 0x20 then none
    else some { scanner with mode := .string (.char c :: content) }
  | .escape content =>
    if c = 'u' then some { scanner with mode := .hex 4 0 content }
    else (escaped? c).map fun e => { scanner with mode := .string (.char e :: content) }
  | .hex remaining unit content =>
    (hexValue? c).map fun digit =>
      let unit := 16 * unit + digit
      if remaining ≤ 1 then { scanner with mode := .string (addUnit unit content) }
      else { scanner with mode := .hex (remaining - 1) unit content }

end Scanner

/-- The tokens of a text, or none if the text is malformed. -/
def scan? (text : List Char) : Option (List Token) :=
  (text.foldlM Scanner.step? Scanner.start).bind fun scanner =>
    scanner.settle?.map fun done => done.tokens.reverse

end DatalogStrata.Json
