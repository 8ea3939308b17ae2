import DatalogStrata.Pattern.Basic

/-!
# Well formed patterns

Whether a pattern is well formed is decided by an automaton that takes one character at a time and
may look ahead.

Patterns are read where a closing brace would end them. So none has a closing brace, and the escapes
and counts that need one are never complete.

A pattern stands for a set of texts, and no tables of the classes of Unicode are at hand. So unless
Unicode is switched off, escapes for classes and word boundaries are refused, and so are characters
that stand for both cases. If it is switched off, whatever could match a part of a character is.

## Main definitions

* `Pattern.Reader.step?` — one step of the automaton
* `Pattern.isWellFormed` — whether a text is a well formed pattern
-/

namespace DatalogStrata.Pattern

namespace Reader

/-- Go to a stage. -/
def goTo (reader : Reader) (stage : Stage) : Reader :=
  { reader with stage }

/-- Pass over characters that have been looked at. -/
def pass (reader : Reader) (count : Nat) : Reader :=
  { reader with passing := count }

/-- Add an item to the innermost group. -/
def addItem (reader : Reader) (depth : Nat) : Reader :=
  { reader with stage := .item, read := reader.read.add depth }

/-- Add an item to the innermost class. -/
def addMember (reader : Reader) (depth : Nat) (stage : Stage) : Reader :=
  match reader.classes with
  | members :: classes => { reader with stage, classes := members.add depth :: classes }
  | [] => reader

/-- Open a group. -/
def openGroup (reader : Reader) (flags : Flags) : Reader :=
  { reader with
    stage := .item
    flags
    read := .empty
    groups := ⟨reader.flags, reader.read⟩ :: reader.groups }

/-- Close the innermost group and add it to the one around it. -/
def closeGroup? (reader : Reader) : Option Reader :=
  match reader.groups with
  | outside :: groups =>
    let depth := reader.read.depth + 1
    some ({ reader with flags := outside.flags, read := outside.read, groups }.addItem depth)
  | [] => none

/-- Open a class, be it within another one. -/
def openClass (reader : Reader) : Reader :=
  { reader with stage := .classOpened, classes := .empty :: reader.classes }

/-- Close the innermost class and add it to what is around it. -/
def closeClass? (reader : Reader) : Option Reader :=
  match reader.classes with
  | [members] => some ({ reader with classes := [] }.addItem (members.depth + 1))
  | members :: classes =>
    some ({ reader with classes }.addMember (members.depth + 1) .classItem)
  | [] => none

/-- Begin the right side of an operator on classes, which is written by two characters. -/
def operate? (reader : Reader) : Option Reader :=
  match reader.classes with
  | members :: classes =>
    some { reader with stage := .classItem, classes := members.operate :: classes, passing := 1 }
  | [] => none

/-- Whether a character may stand for itself. Without Unicode a byte beyond ASCII is no character,
and a class holds ASCII only. -/
def admits (reader : Reader) (byte : Bool) (value : Nat) : Bool :=
  if reader.flags.unicode then !reader.flags.caseless
  else value < 0x80 || (reader.classes.isEmpty && !byte)

/-- Add a character that stands for itself in a class. -/
def member? (reader : Reader) (c : Char) (stage : Stage) : Option Reader :=
  if reader.admits false c.toNat then some (reader.addMember 0 stage) else none

/-- Take a character that stands for itself, or an escape for one. -/
def literal? (reader : Reader) (place : Place) (byte : Bool) (value : Nat) : Option Reader :=
  if reader.admits byte value then
    match place with
    | .group => some (reader.addItem 0)
    | .bracket => some (reader.addMember 0 (.classAfter (some value)))
    | .rangeEnd (some low) => if low ≤ value then some (reader.goTo .classItem) else none
    | .rangeEnd none => none
  else
    none

/-- Take an escape for a class of characters, which no range ends with. -/
def escapedClass? (reader : Reader) (place : Place) : Option Reader :=
  match place with
  | .group => some (reader.addItem 0)
  | .bracket => some (reader.addMember 0 (.classAfter none))
  | .rangeEnd _ => none

/-- Take an escape for a place in the text, which no class holds. -/
def boundary? (reader : Reader) (place : Place) : Option Reader :=
  match place with
  | .group => some (reader.addItem 0)
  | .bracket | .rangeEnd _ => none

/-- Take the character after a backslash. -/
def escaped? (reader : Reader) (place : Place) (c : Char) : Option Reader :=
  if c = 'x' then some (reader.goTo (.hex place true 2 0))
  else if c = 'u' then some (reader.goTo (.hex place false 4 0))
  else if c = 'U' then some (reader.goTo (.hex place false 8 0))
  else if c = 'd' || c = 's' || c = 'w' then
    if reader.flags.unicode then none else reader.escapedClass? place
  else if c = 'A' || c = 'z' then reader.boundary? place
  else if c = 'b' || c = 'B' || c = '<' || c = '>' then
    if reader.flags.unicode then none else reader.boundary? place
  else if c = 'a' then reader.literal? place false 0x07
  else if c = 'f' then reader.literal? place false 0x0C
  else if c = 't' then reader.literal? place false 0x09
  else if c = 'n' then reader.literal? place false 0x0A
  else if c = 'r' then reader.literal? place false 0x0D
  else if c = 'v' then reader.literal? place false 0x0B
  else if c.toNat < 0x80 && !c.isAlphanum then reader.literal? place false c.toNat
  else none

/-- Take a hexadecimal digit. The last one completes a character. -/
def hexDigit? (reader : Reader) (place : Place) (byte : Bool) (remaining value : Nat) (c : Char) :
    Option Reader :=
  (hexValue? c).bind fun digit =>
    let value := 16 * value + digit
    if 1 < remaining then some (reader.goTo (.hex place byte (remaining - 1) value))
    else if value.isValidChar then reader.literal? place byte value
    else none

/-- Repeat the last item. A question mark right after the operator belongs to it. -/
def repeat? (reader : Reader) (rest : List Char) : Option Reader :=
  reader.read.repeat?.map fun read =>
    { reader with read }.pass (if isNext '?' rest then 1 else 0)

/-- Take a character where an item may begin. -/
def item? (reader : Reader) (c : Char) (rest : List Char) : Option Reader :=
  if c = '\\' then some (reader.goTo (.escape .group))
  else if c = '(' then some (reader.goTo .opened)
  else if c = ')' then reader.closeGroup?
  else if c = '[' then some reader.openClass
  else if c = '|' then some { reader with read := reader.read.another }
  else if c = '*' || c = '+' || c = '?' then reader.repeat? rest
  -- A count of repetitions would need a closing brace.
  else if c = '\x7b' then none
  else if c = '^' || c = '$' then some (reader.addItem 0)
  else if c = '.' then if reader.flags.unicode then some (reader.addItem 0) else none
  else reader.literal? .group false c.toNat

/-- Take a character of the name of a group; no two groups have the same name. -/
def name? (reader : Reader) (letters : List Char) (c : Char) : Option Reader :=
  if c = '>' then
    if letters.isEmpty || letters ∈ reader.names then none
    else some { reader.openGroup reader.flags with names := letters :: reader.names }
  else if c = '_' || isLetter c then some (reader.goTo (.name (c :: letters)))
  else if !letters.isEmpty && (c ∈ ['.', '[', ']'] || isNumber c) then
    some (reader.goTo (.name (c :: letters)))
  else none

/-- Take a character among flags. Each flag is mentioned once, and something follows the minus
sign. -/
def flags? (reader : Reader) (result : Flags) (mentioned : List Char) (off dangling : Bool)
    (c : Char) : Option Reader :=
  if c = ':' then
    if dangling then none else some (reader.openGroup result)
  else if c = ')' then
    if dangling || mentioned.isEmpty then none
    else some { reader with stage := .item, flags := result, read := reader.read.addFlags }
  else if c ∈ mentioned then none
  else if c = '-' then some (reader.goTo (.flags result (c :: mentioned) true true))
  else (result.switch? c !off).map fun result =>
    reader.goTo (.flags result (c :: mentioned) off false)

/-- Take the character after `(?`. -/
def question? (reader : Reader) (c : Char) : Option Reader :=
  if c = '<' then some (reader.goTo (.name []))
  else if c = 'P' then some (reader.goTo .named)
  else reader.flags? reader.flags [] false false c

/-- Take an opening bracket within a class, where a class may stand by its name. Without Unicode a
class has no opposite, since that would hold more than ASCII. -/
def innerClass? (reader : Reader) (rest : List Char) : Option Reader :=
  match namedClass? rest with
  | some (opposite, length) =>
    if reader.flags.unicode && reader.flags.caseless then none
    else if opposite && !reader.flags.unicode then none
    else some ((reader.addMember 0 .classItem).pass length)
  | none => some reader.openClass

/-- Take a character where an item of a class may begin. -/
def classItem? (reader : Reader) (c : Char) (rest : List Char) : Option Reader :=
  if c = ']' then reader.closeClass?
  else if c = '[' then reader.innerClass? rest
  else if (c = '&' || c = '-' || c = '~') && isNext c rest then reader.operate?
  else if c = '\\' then some (reader.goTo (.escape .bracket))
  else reader.literal? .bracket false c.toNat

/-- Take a character at the beginning of a class. -/
def classStart? (reader : Reader) (c : Char) (rest : List Char) : Option Reader :=
  if c = '-' then reader.member? c .classDashes
  else if c = ']' then reader.member? c .classItem
  else reader.classItem? c rest

/-- Take a character after an item of a class. A minus sign makes a range, unless what comes next
ends the class or is another minus sign. -/
def classAfter? (reader : Reader) (low : Option Nat) (c : Char) (rest : List Char) :
    Option Reader :=
  if c = '-' && ahead reader.flags rest ∉ [some ']', some '-'] then
    some (reader.goTo (.classRange low))
  else
    reader.classItem? c rest

/-- Take a character that is not skipped. -/
def read? (reader : Reader) (c : Char) (rest : List Char) : Option Reader :=
  match reader.stage with
  | .item => reader.item? c rest
  | .opened =>
    if c = '?' then some (reader.goTo .question)
    else (reader.openGroup reader.flags).item? c rest
  | .question => reader.question? c
  | .named => if c = '<' then some (reader.goTo (.name [])) else none
  | .name letters => reader.name? letters c
  | .flags result mentioned off dangling => reader.flags? result mentioned off dangling c
  | .escape place => reader.escaped? place c
  | .hex place byte remaining value => reader.hexDigit? place byte remaining value c
  | .classOpened =>
    if c = '^' then if reader.flags.unicode then some (reader.goTo .classStart) else none
    else reader.classStart? c rest
  | .classStart => reader.classStart? c rest
  | .classDashes =>
    if c = '-' then reader.member? c .classDashes else reader.classItem? c rest
  | .classItem => reader.classItem? c rest
  | .classAfter low => reader.classAfter? low c rest
  | .classRange low =>
    if c = '\\' then some (reader.goTo (.escape (.rangeEnd low)))
    else reader.literal? (.rangeEnd low) false c.toNat

/-- Take a character or skip it. -/
def step? (reader : Reader) (c : Char) (rest : List Char) : Option Reader :=
  if reader.passing ≠ 0 then some (reader.pass (reader.passing - 1))
  else if reader.comment then some { reader with comment := c ≠ '\n' }
  else if reader.flags.spaced && reader.stage.skips && (c = '#' || isWhiteSpace c) then
    some { reader with comment := c = '#' }
  else reader.read? c rest

/-- Take all characters. -/
def run? (reader : Reader) : List Char → Option Reader
  | [] => some reader
  | c :: rest => (reader.step? c rest).bind (·.run? rest)

/-- Whether a pattern may end here: nothing is open, and nothing is nested too deep. -/
def complete (reader : Reader) : Bool :=
  reader.stage = .item && reader.groups.isEmpty && reader.read.depth ≤ nestingLimit

end Reader

/-- Whether a text is a well formed pattern. -/
def isWellFormed (text : List Char) : Bool :=
  match Reader.start.run? text with
  | some reader => reader.complete
  | none => false

end DatalogStrata.Pattern
