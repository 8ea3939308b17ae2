import DatalogStrata.Json.Token

/-!
# Reading JSON values

Values are assembled from tokens by an automaton with a stack of the containers that are still
open. Its depth is bounded by nothing but the text, since the stack is an ordinary list.

## Main definitions

* `Json.Frame` — an open container
* `Json.Assembler` — what may come next
* `Json.ofTokens?` — the value that a list of tokens writes
* `Json.parse?` — the value that a text writes
-/

namespace DatalogStrata.Json

/-- A container that is still open, with what it holds so far in reverse. -/
inductive Frame where
  | array (items : List Json)
  /-- An object that waits for the value of a key. -/
  | object (members : List (List Piece × Json)) (key : List Piece)

/-- What may come next. -/
inductive Assembler where
  /-- A value. -/
  | atValue (frames : List Frame)
  /-- The first item of an array, or its end. -/
  | atFirstItem (outer : List Frame)
  /-- The first key of an object, or its end. -/
  | atFirstKey (outer : List Frame)
  /-- A key of an object that has members. -/
  | atKey (members : List (List Piece × Json)) (outer : List Frame)
  /-- The colon after a key. -/
  | atColon (members : List (List Piece × Json)) (key : List Piece) (outer : List Frame)
  /-- A comma or the end of an array that has items. -/
  | afterItem (items : List Json) (outer : List Frame)
  /-- A comma or the end of an object that has members. -/
  | afterMember (members : List (List Piece × Json)) (outer : List Frame)
  /-- Nothing: the value is complete. -/
  | done (value : Json)

namespace Assembler

/-- Go on after a complete value. -/
def supply (value : Json) : List Frame → Assembler
  | [] => .done value
  | .array items :: outer => .afterItem (value :: items) outer
  | .object members key :: outer => .afterMember ((key, value) :: members) outer

/-- Take a token where a value must come. -/
def begin? (frames : List Frame) : Token → Option Assembler
  | .openBrace => some (.atFirstKey frames)
  | .openBracket => some (.atFirstItem frames)
  | .null => some (supply .null frames)
  | .bool b => some (supply (.bool b) frames)
  | .number n => some (supply (.number n) frames)
  | .string s => some (supply (.string s) frames)
  | .closeBrace | .closeBracket | .comma | .colon => none

/-- Take one token. -/
def step? : Assembler → Token → Option Assembler
  | .atValue frames, token => begin? frames token
  | .atFirstItem outer, .closeBracket => some (supply (.array []) outer)
  | .atFirstItem outer, token => begin? (.array [] :: outer) token
  | .atFirstKey outer, .closeBrace => some (supply (.object []) outer)
  | .atFirstKey outer, .string key => some (.atColon [] key outer)
  | .atKey members outer, .string key => some (.atColon members key outer)
  | .atColon members key outer, .colon => some (.atValue (.object members key :: outer))
  | .afterItem items outer, .comma => some (.atValue (.array items :: outer))
  | .afterItem items outer, .closeBracket => some (supply (.array items.reverse) outer)
  | .afterMember members outer, .comma => some (.atKey members outer)
  | .afterMember members outer, .closeBrace => some (supply (.object members.reverse) outer)
  | _, _ => none

/-- The value, once it is complete. -/
def result? : Assembler → Option Json
  | .done value => some value
  | _ => none

end Assembler

/-- The value that a list of tokens writes. -/
def ofTokens? (tokens : List Token) : Option Json :=
  (tokens.foldlM Assembler.step? (.atValue [])).bind Assembler.result?

/-- The value that a text writes. -/
def parse? (text : String) : Option Json :=
  (scan? text.toList).bind ofTokens?

end DatalogStrata.Json
