/-!
# JSON values

The content of a JSON text. Objects keep their members in the order written, repeated keys
included. The content of a string is a list of characters and of surrogates that an escape wrote
without a partner: such a string is well-formed JSON but is no text. Whole numbers are exact; of
every other number only the spelling is kept.

## Main definitions

* `Json.Piece`, `Json.textOf?` — the content of a string and the text it may be
* `Json.Number` — a number
* `Json` — a value
-/

namespace DatalogStrata

/-- What one place of a JSON string holds. -/
inductive Json.Piece where
  | char (char : Char)
  /-- A surrogate code unit without its partner. -/
  | surrogate (unit : Nat)
deriving DecidableEq, Repr

/-- A JSON number. -/
inductive Json.Number where
  /-- A number written without fraction and exponent. -/
  | whole (value : Int)
  /-- Any other number, by its spelling; a negative zero is one of these. -/
  | other (spelling : List Char)
deriving DecidableEq, Repr

/-- A JSON value. -/
inductive Json where
  | null
  | bool (value : Bool)
  | number (value : Json.Number)
  | string (content : List Json.Piece)
  | array (items : List Json)
  | object (members : List (List Json.Piece × Json))

namespace Json

/-- The text that string content is, unless a lone surrogate stands in it. -/
def textOf? : List Piece → Option String
  | pieces => (pieces.mapM char?).map String.ofList
where
  /-- The character at one place. -/
  char? : Piece → Option Char
    | .char c => some c
    | .surrogate _ => none

/-- The content of a string that holds a given text. -/
def contentOf (text : String) : List Piece :=
  text.toList.map .char

/-- A string value. -/
def text (text : String) : Json :=
  .string (contentOf text)

/-- A member of an object. -/
def member (key : String) (value : Json) : List Piece × Json :=
  (contentOf key, value)

end Json

end DatalogStrata
