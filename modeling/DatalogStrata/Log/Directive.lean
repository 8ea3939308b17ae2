import DatalogStrata.Pattern.Reader

/-!
# Directives of a log filter

A directive gives a verbosity for a part of the tool, for records made within a span, for records
with certain fields, or for all of these together: `part[span{field=value}]=verbosity`. What is not
asked for may be left out, and a verbosity alone is for everything. Without a verbosity a directive
asks for everything that it speaks of.

An automaton takes the directive apart, one character at a time. It notes places, and the texts of
part, span, fields and verbosity are cut out by them.

## Main definitions

* `LogField`, `LogDirective` — a directive
* `verbosity?` — a verbosity by its number or name
* `LogField.parse?` — the field that a text writes
* `FilterFault` — why a directive cannot be read
* `DirectiveStage`, `DirectiveReader` — the states of the automaton
* `LogDirective.parse` — the directive that a text writes
-/

namespace DatalogStrata

/-- A field that a record must have, with a text that its value must match, if any. -/
structure LogField where
  name : String
  value : Option String
deriving DecidableEq, Repr

/-- A verbosity for some records. -/
structure LogDirective where
  /-- The beginning of the names of the parts. -/
  part : String
  /-- The span that a record must be made in. -/
  span : Option String
  /-- The fields that a record must have. -/
  fields : List LogField
  verbosity : Nat
deriving DecidableEq, Repr

/-- The verbosity of everything. -/
def everything : Nat := 5

/-- The names of the verbosities, from the lowest. -/
def verbosityNames : List String :=
  ["off", "error", "warn", "info", "debug", "trace"]

/-- The number that decimal digits write; a plus sign may precede them. -/
def count? (text : List Char) : Option Nat :=
  let digits := match text with
    | '+' :: rest => rest
    | text => text
  if !digits.isEmpty && digits.all Char.isDigit then
    some (digitsValue digits)
  else
    none

/-- A verbosity by its number or by its name, in whatever case. -/
def verbosity? (text : List Char) : Option Nat :=
  match count? text with
  | some value => if value ≤ everything then some value else none
  | none => verbosityNames.idxOf? (String.ofList (text.map Char.toLower))

/-- Whether a text is a decimal number: digits with a point among them or beside them, and an
exponent. -/
def isDecimal (text : List Char) : Bool :=
  let whole := text.takeWhile Char.isDigit
  let (fraction, rest) := match text.dropWhile Char.isDigit with
    | '.' :: rest => (rest.takeWhile Char.isDigit, rest.dropWhile Char.isDigit)
    | rest => ([], rest)
  !(whole ++ fraction).isEmpty && match rest with
    | [] => true
    | mark :: exponent =>
      let digits := match exponent with
        | '+' :: digits | '-' :: digits => digits
        | digits => digits
      (mark = 'e' || mark = 'E') && !digits.isEmpty && digits.all Char.isDigit

/-- The names of what is beyond the numbers, in whatever case. -/
def isBeyondNumbers (text : List Char) : Bool :=
  String.ofList (text.map Char.toLower) ∈ ["inf", "infinity", "nan"]

namespace LogField

/-- Whether a text can be the value of a field. Truth values and numbers are patterns too, except
for a plus sign with nothing to repeat. -/
def isValue : List Char → Bool
  | '+' :: number => isDecimal number || isBeyondNumbers number
  | text => Pattern.isWellFormed text

/-- The field that a text writes: its name, and its value after an equals sign. -/
def parse? (text : List Char) : Option LogField :=
  match splitAt '=' text with
  | name :: value :: _ =>
    if isValue value then some ⟨String.ofList name, String.ofList value⟩ else none
  | _ => if text.isEmpty then none else some ⟨String.ofList text, none⟩

end LogField

/-- What the automaton is inside of, and the place where that began. -/
inductive DirectiveStage where
  | start
  /-- In the name of a part, or in a verbosity that stands alone. -/
  | part
  | span (since : Nat)
  | field (since : Nat)
  /-- After a field. -/
  | fields
  /-- After the closing bracket. -/
  | closed
  | verbosity (since : Nat)
deriving DecidableEq, Repr

/-- The automaton. Places are counted in bytes. -/
structure DirectiveReader where
  stage : DirectiveStage
  place : Nat
  part : List Char
  span : Option (List Char)
  fields : List LogField
deriving DecidableEq, Repr

/-- Why a directive cannot be read. -/
inductive FilterFault where
  | malformed
  /-- A text would have to be cut out at a place inside a character. -/
  | insideCharacter
deriving DecidableEq, Repr

/-- A text without its first bytes. -/
def dropBytes : Nat → List Char → Except FilterFault (List Char)
  | 0, text => .ok text
  | _, [] => .error .insideCharacter
  | count, c :: rest =>
    if c.utf8Size ≤ count then dropBytes (count - c.utf8Size) rest else .error .insideCharacter

/-- The first bytes of a text. -/
def takeBytes : Nat → List Char → Except FilterFault (List Char)
  | 0, _ => .ok []
  | _, [] => .error .insideCharacter
  | count, c :: rest =>
    if c.utf8Size ≤ count then (takeBytes (count - c.utf8Size) rest).map (c :: ·)
    else .error .insideCharacter

/-- The piece of a text between two places. -/
def cut (text : List Char) (first last : Nat) : Except FilterFault (List Char) :=
  (dropBytes first text).bind (takeBytes (last - first))

/-- The result of a reader, whose only fault is a malformed text. -/
def orMalformed {α : Type} : Option α → Except FilterFault α
  | some found => .ok found
  | none => .error .malformed

namespace DirectiveReader

/-- The automaton before the first character. -/
def start : DirectiveReader :=
  ⟨.start, 0, [], none, []⟩

/-- Whether a character may begin the name of a part. -/
def opens (c : Char) : Bool :=
  c = '-' || c = ':' || c = '_' || isLetterOrNumber c

/-- Go to the stage that a character leads to. Texts are cut out of the whole directive. -/
def advance (whole : List Char) (reader : DirectiveReader) (c : Char) :
    Except FilterFault DirectiveReader :=
  let next := reader.place + c.utf8Size
  match reader.stage with
  | .start =>
    if c = '[' then .ok { reader with stage := .span next }
    else if opens c then .ok { reader with stage := .part }
    else .error .malformed
  | .part =>
    if c = '=' then
      (cut whole 0 reader.place).map fun part => { reader with stage := .verbosity next, part }
    else if c = '[' then
      (cut whole 0 reader.place).map fun part => { reader with stage := .span next, part }
    else
      .ok reader
  | .span since =>
    if c = ']' then
      (cut whole since reader.place).map fun span =>
        { reader with stage := .closed, span := some span }
    else if c = '\x7b' then
      (cut whole since reader.place).map fun span =>
        { reader with stage := .field next, span := if span.isEmpty then none else some span }
    else
      .ok reader
  | .field since =>
    if c = '\x7d' then
      ((cut whole since reader.place).bind fun text => orMalformed (LogField.parse? text)).map
        fun field => { reader with stage := .fields, fields := reader.fields ++ [field] }
    else
      .ok reader
  | .fields => if c = ']' then .ok { reader with stage := .closed } else .error .malformed
  | .closed => if c = '=' then .ok { reader with stage := .verbosity next } else .error .malformed
  | .verbosity _ => .ok reader

/-- Take a character. -/
def step (whole : List Char) (reader : DirectiveReader) (c : Char) :
    Except FilterFault DirectiveReader :=
  (reader.advance whole c).map fun after => { after with place := reader.place + c.utf8Size }

/-- The directive that has been read, with a verbosity. -/
def toDirective (reader : DirectiveReader) (verbosity : Nat) : LogDirective :=
  ⟨String.ofList reader.part, reader.span.map String.ofList, reader.fields, verbosity⟩

/-- The directive after the last character. -/
def finish (whole : List Char) (reader : DirectiveReader) : Except FilterFault LogDirective :=
  match reader.stage with
  | .part =>
    match verbosity? whole with
    | some verbosity => .ok (reader.toDirective verbosity)
    | none => .ok ({ reader with part := whole }.toDirective everything)
  | .verbosity since =>
    (dropBytes since whole).bind fun text =>
      if text.isEmpty then .ok (reader.toDirective everything)
      else (orMalformed (verbosity? text)).map reader.toDirective
  | .closed => .ok (reader.toDirective everything)
  | .start | .span _ | .field _ | .fields => .error .malformed

end DirectiveReader

/-- The directive that a text writes. White space at the ends is not looked at, but it keeps its
place: places are those of the text without it, and the cuts are made in the text with it. -/
def LogDirective.parse (text : List Char) : Except FilterFault LogDirective :=
  ((trim text).foldlM (DirectiveReader.step text) DirectiveReader.start).bind
    (DirectiveReader.finish text)

end DatalogStrata
