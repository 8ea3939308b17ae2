import DatalogStrata.Json.Token

/-!
# Writing JSON values

Values are written without blanks. In strings the quote, the backslash and the control characters
are escaped, by a letter where there is one; everything else stands as it is.

## Main definitions

* `Json.tokens` — the tokens of a value
* `Json.Token.spelling` — the spelling of a token
* `Json.render` — the text of a value
-/

namespace DatalogStrata.Json

/-- A hexadecimal digit in lower case. -/
def hexDigit (value : Nat) : Char :=
  if value < 10 then Char.ofNat ('0'.toNat + value) else Char.ofNat ('a'.toNat + (value - 10))

/-- The escape for a code unit by its number. -/
def unitEscape (unit : Nat) : List Char :=
  ['\\', 'u', hexDigit (unit / 4096 % 16), hexDigit (unit / 256 % 16), hexDigit (unit / 16 % 16),
    hexDigit (unit % 16)]

/-- How a character stands in a string. -/
def escapeChar (c : Char) : List Char :=
  if c = '"' then ['\\', '"']
  else if c = '\\' then ['\\', '\\']
  else if c = '\x08' then ['\\', 'b']
  else if c = '\x0c' then ['\\', 'f']
  else if c = '\n' then ['\\', 'n']
  else if c = '\r' then ['\\', 'r']
  else if c = '\t' then ['\\', 't']
  else if c.toNat < 0x20 then unitEscape c.toNat
  else [c]

/-- How one place of a string is written. -/
def Piece.spelling : Piece → List Char
  | .char c => escapeChar c
  | .surrogate unit => unitEscape unit

/-- The decimal spelling of a whole number. -/
def wholeSpelling (value : Int) : List Char :=
  match value with
  | .ofNat n => Nat.toDigits 10 n
  | .negSucc n => '-' :: Nat.toDigits 10 (n + 1)

/-- The spelling of a token. -/
def Token.spelling : Token → List Char
  | .openBrace => ['\x7b']
  | .closeBrace => ['\x7d']
  | .openBracket => ['[']
  | .closeBracket => [']']
  | .comma => [',']
  | .colon => [':']
  | .null => "null".toList
  | .bool true => "true".toList
  | .bool false => "false".toList
  | .number (.whole value) => wholeSpelling value
  | .number (.other spelling) => spelling
  | .string content => '"' :: content.flatMap Piece.spelling ++ ['"']

mutual

/-- The tokens of a value. -/
def tokens : Json → List Token
  | .null => [.null]
  | .bool value => [.bool value]
  | .number value => [.number value]
  | .string content => [.string content]
  | .array items => .openBracket :: itemTokens items ++ [.closeBracket]
  | .object members => .openBrace :: memberTokens members ++ [.closeBrace]

/-- The tokens of items, with a comma between neighbours. -/
def itemTokens : List Json → List Token
  | [] => []
  | [item] => item.tokens
  | item :: rest => item.tokens ++ .comma :: itemTokens rest

/-- The tokens of members, with a comma between neighbours. -/
def memberTokens : List (List Piece × Json) → List Token
  | [] => []
  | [(key, value)] => .string key :: .colon :: value.tokens
  | (key, value) :: rest => .string key :: .colon :: value.tokens ++ .comma :: memberTokens rest

end

/-- The text of a value. -/
def render (value : Json) : String :=
  String.ofList (value.tokens.flatMap Token.spelling)

end DatalogStrata.Json
