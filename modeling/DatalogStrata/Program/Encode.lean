import DatalogStrata.Json.Writer
import DatalogStrata.Program.Basic

/-!
# Programs as JSON

Every structure is written as an object with all its fields, in a fixed order. A term or literal
with content is an object with one member named for its kind; one without content is the name of
its kind as a string. Names, types and operators are strings.

## Main definitions

* `Program.toJson`, `Program.render` — a program as a JSON value and as JSON text
* `Name.renderAll` — a list of names as JSON text
-/

namespace DatalogStrata

open Json (member)

/-- A value under the name of its kind. -/
def Json.tagged (kind : String) (value : Json) : Json :=
  .object [member kind value]

/-- A name is the string of its text. -/
def Name.toJson (name : Name) : Json :=
  .text name.text

/-- A column by its name and type. -/
def Attribute.toJson (column : Attribute) : Json :=
  .object [member "name" (.text column.name), member "type" (.text column.type.text)]

/-- A declaration by its name and columns. -/
def Declaration.toJson (declaration : Declaration) : Json :=
  .object [member "name" declaration.name.toJson,
    member "attributes" (.array (declaration.attributes.map Attribute.toJson))]

/-- A constant is a number or a string, without a name for its kind. -/
def Constant.toJson : Constant → Json
  | .number value => .number (.whole value.toInt)
  | .symbol value => .text value

mutual

/-- A term as JSON. -/
def Term.toJson : Term → Json
  | .variable name => .tagged "var" (.text name)
  | .constant value => .tagged "const" value.toJson
  | .placeholder => .text "placeholder"
  | .record fields => .tagged "record" (.array (Term.allToJson fields))
  | .functor name arguments =>
    .tagged "functor"
      (.object [member "name" (.text name), member "args" (.array (Term.allToJson arguments))])
  | .aggregate operator none body =>
    .tagged "aggregate"
      (.object [member "operator" (.text operator.text), member "target" .null,
        member "body" (.array (Literal.allToJson body))])
  | .aggregate operator (some target) body =>
    .tagged "aggregate"
      (.object [member "operator" (.text operator.text), member "target" target.toJson,
        member "body" (.array (Literal.allToJson body))])

/-- Terms as JSON. -/
def Term.allToJson : List Term → List Json
  | [] => []
  | term :: rest => term.toJson :: Term.allToJson rest

/-- A literal as JSON. -/
def Literal.toJson : Literal → Json
  | .atom atom => .tagged "atom" atom.toJson
  | .negation atom => .tagged "negation" atom.toJson
  | .constraint left comparison right =>
    .tagged "constraint"
      (.object [member "lhs" left.toJson, member "op" (.text comparison.text),
        member "rhs" right.toJson])
  | .bool value => .tagged "bool" (.bool value)

/-- Literals as JSON. -/
def Literal.allToJson : List Literal → List Json
  | [] => []
  | literal :: rest => literal.toJson :: Literal.allToJson rest

/-- An atom by its name and arguments. -/
def Atom.toJson : Atom → Json
  | ⟨name, arguments⟩ =>
    .object [member "name" name.toJson, member "arguments" (.array (Term.allToJson arguments))]

end

/-- A clause by its head and body. -/
def Clause.toJson (clause : Clause) : Json :=
  .object [member "head" clause.head.toJson,
    member "body" (.array (Literal.allToJson clause.body))]

/-- A program by its declarations and clauses. -/
def Program.toJson (program : Program) : Json :=
  .object [member "relations" (.array (program.declarations.map Declaration.toJson)),
    member "clauses" (.array (program.clauses.map Clause.toJson))]

/-- The JSON text of a program. -/
def Program.render (program : Program) : String :=
  program.toJson.render

/-- The JSON text of a list of names. -/
def Name.renderAll (names : List Name) : String :=
  (Json.array (names.map Name.toJson)).render

end DatalogStrata
