import DatalogStrata.Json.Reader
import DatalogStrata.Json.Shape
import DatalogStrata.Program.Basic

/-!
# Programs from JSON

Programs arrive as JSON text. Typed data may stand below at most 127 containers. Lists that are
empty may be left out, and so may the target of an aggregate; all other fields are required.
Numbers are whole and fit in 64 bits.

## Main definitions

* `Program.ofJson?` — the program that a JSON value describes
* `ParseError`, `Program.read?`, `Program.parse` — a program from text, without and with validation
-/

namespace DatalogStrata

open Json (asText? asBool? asList? fields? choice? bareChoice? orDefault)

/-- How many containers may enclose typed data. -/
def depthLimit : Nat := 127

/-- A name from its text. -/
def Name.ofJson? (value : Json) : Option Name :=
  (asText? value).map Name.parse

/-- A column type from its text. -/
def AttributeType.ofJson? (value : Json) : Option AttributeType :=
  (asText? value).map AttributeType.parse

/-- A column from a structure. -/
def Attribute.ofJson? : Nat → Json → Option Attribute
  | _ + 1, value =>
    match fields? ["name", "type"] value with
    | some [some name, some type] => do
      return ⟨← asText? name, ← AttributeType.ofJson? type⟩
    | _ => none
  | _, _ => none

/-- A declaration from a structure. -/
def Declaration.ofJson? : Nat → Json → Option Declaration
  | budget + 1, value =>
    match fields? ["name", "attributes"] value with
    | some [some name, attributes] => do
      return ⟨← Name.ofJson? name, ← orDefault [] (asList? Attribute.ofJson? budget) attributes⟩
    | _ => none
  | _, _ => none

/-- A constant: a whole number of 64 bits or a string. -/
def Constant.ofJson? : Json → Option Constant
  | .number (.whole value) =>
    if Int64.minValue.toInt ≤ value ∧ value ≤ Int64.maxValue.toInt then
      some (.number (Int64.ofInt value))
    else
      none
  | .string content => (Json.textOf? content).map .symbol
  | _ => none

/-- An aggregator from its keyword. -/
def Aggregator.ofJson? (budget : Nat) (value : Json) : Option Aggregator :=
  (bareChoice? budget value).bind Aggregator.parse?

/-- A comparison from its written form. -/
def Comparison.ofJson? (budget : Nat) (value : Json) : Option Comparison :=
  (bareChoice? budget value).bind Comparison.parse?

mutual

/-- A term from a choice. -/
def Term.ofJson? : Nat → Json → Option Term
  | _, .string content =>
    if Json.textOf? content = some "placeholder" then some .placeholder else none
  | budget + 1, value =>
    match choice? value with
    | some ("var", content) => (asText? content).map .variable
    | some ("const", content) => (Constant.ofJson? content).map .constant
    | some ("placeholder", .null) => some .placeholder
    | some ("record", content) => (Term.listOfJson? budget content).map .record
    | some ("functor", content) => Term.functorOfJson? budget content
    | some ("aggregate", content) => Term.aggregateOfJson? budget content
    | _ => none
  | _, _ => none

/-- A list of terms. -/
def Term.listOfJson? : Nat → Json → Option (List Term)
  | budget + 1, .array items => items.mapM fun item => Term.ofJson? budget item
  | _, _ => none

/-- The name and arguments of a functor. -/
def Term.functorOfJson? : Nat → Json → Option Term
  | budget + 1, value =>
    match fields? ["name", "args"] value with
    | some [some name, some arguments] => do
      return .functor (← asText? name) (← Term.listOfJson? budget arguments)
    | _ => none
  | _, _ => none

/-- The operator, target and body of an aggregate. -/
def Term.aggregateOfJson? : Nat → Json → Option Term
  | budget + 1, value =>
    match fields? ["operator", "target", "body"] value with
    | some [some operator, target, body] => do
      let operator ← Aggregator.ofJson? budget operator
      let target ←
        match target with
        -- A null says the same as an absent target.
        | none | some .null => some none
        | some target => (Term.ofJson? budget target).map some
      let body ←
        match body with
        | none => some []
        | some body => Literal.listOfJson? budget body
      return .aggregate operator target body
    | _ => none
  | _, _ => none

/-- A literal from a choice. -/
def Literal.ofJson? : Nat → Json → Option Literal
  | budget + 1, value =>
    match choice? value with
    | some ("atom", content) => (Atom.ofJson? budget content).map .atom
    | some ("negation", content) => (Atom.ofJson? budget content).map .negation
    | some ("constraint", content) => Literal.constraintOfJson? budget content
    | some ("bool", content) => (asBool? content).map .bool
    | _ => none
  | _, _ => none

/-- A list of literals. -/
def Literal.listOfJson? : Nat → Json → Option (List Literal)
  | budget + 1, .array items => items.mapM fun item => Literal.ofJson? budget item
  | _, _ => none

/-- The two sides and the operator of a constraint. -/
def Literal.constraintOfJson? : Nat → Json → Option Literal
  | budget + 1, value =>
    match fields? ["lhs", "op", "rhs"] value with
    | some [some left, some comparison, some right] => do
      return .constraint (← Term.ofJson? budget left) (← Comparison.ofJson? budget comparison)
        (← Term.ofJson? budget right)
    | _ => none
  | _, _ => none

/-- An atom from a structure. -/
def Atom.ofJson? : Nat → Json → Option Atom
  | budget + 1, value =>
    match fields? ["name", "arguments"] value with
    | some [some name, arguments] => do
      let name ← Name.ofJson? name
      let arguments ←
        match arguments with
        | none => some []
        | some arguments => Term.listOfJson? budget arguments
      return ⟨name, arguments⟩
    | _ => none
  | _, _ => none

end

/-- A clause from a structure. -/
def Clause.ofJson? : Nat → Json → Option Clause
  | budget + 1, value =>
    match fields? ["head", "body"] value with
    | some [some head, body] => do
      return ⟨← Atom.ofJson? budget head, ← orDefault [] (Literal.listOfJson? budget) body⟩
    | _ => none
  | _, _ => none

/-- A program from a structure. -/
def Program.ofJson? : Nat → Json → Option Program
  | budget + 1, value =>
    match fields? ["relations", "clauses"] value with
    | some [declarations, clauses] => do
      return ⟨← orDefault [] (asList? Declaration.ofJson? budget) declarations,
        ← orDefault [] (asList? Clause.ofJson? budget) clauses⟩
    | _ => none
  | _, _ => none

/-- How a reader of JSON words what is wrong with a text. That is the reader's own affair, and left
open here. -/
class JsonWording where
  /-- What is wrong with a text that is not JSON or does not have the shape of a program. -/
  fault : String → String

/-- Why a text is no valid program. -/
inductive ParseError where
  /-- The text is not JSON or does not have the shape of a program. -/
  | malformed (text : String)
  | invalid (fault : Fault)
deriving DecidableEq

/-- The message for a parse error. -/
def ParseError.message [JsonWording] : ParseError → String
  | malformed text =>
    "Program error: malformed program description: " ++ JsonWording.fault text
  | invalid fault => fault.message

namespace Program

/-- The program that a text describes, valid or not. -/
def read? (text : String) : Option Program :=
  (Json.parse? text).bind (Program.ofJson? depthLimit)

/-- The valid program that a text describes. -/
def parse (text : String) : Except ParseError Program :=
  match read? text with
  | none => .error (.malformed text)
  | some program =>
    match program.fault? with
    | none => .ok program
    | some fault => .error (.invalid fault)

end Program

end DatalogStrata
