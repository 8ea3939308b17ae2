import DatalogStrata.Clause.Basic

/-!
# The text of clauses

Clauses are written as in a Datalog source: `reach(x) :- reach(y), !blocked(x).` Symbols stand
between quotes and are not escaped, so the text is meant for people.

## Main definitions

* `Term.text`, `Literal.text`, `Atom.text`, `Clause.text`
-/

namespace DatalogStrata

/-- Numbers in decimal, symbols between quotes. -/
def Constant.text : Constant → String
  | .number value => toString value.toInt
  | .symbol value => "\"" ++ value ++ "\""

mutual

/-- The text of a term. -/
def Term.text : Term → String
  | .variable name => name
  | .constant value => value.text
  | .placeholder => "_"
  | .record fields => "[" ++ commaSeparated (Term.texts fields) ++ "]"
  | .functor name arguments => name ++ "(" ++ commaSeparated (Term.texts arguments) ++ ")"
  | .aggregate operator none body =>
    operator.text ++ " : \x7b " ++ commaSeparated (Literal.texts body) ++ " \x7d"
  | .aggregate operator (some target) body =>
    operator.text ++ " " ++ target.text ++ " : \x7b " ++ commaSeparated (Literal.texts body) ++
      " \x7d"

/-- The texts of several terms. -/
def Term.texts : List Term → List String
  | [] => []
  | term :: rest => term.text :: Term.texts rest

/-- The text of a literal. -/
def Literal.text : Literal → String
  | .atom atom => atom.text
  | .negation atom => "!" ++ atom.text
  | .constraint left comparison right => left.text ++ " " ++ comparison.text ++ " " ++ right.text
  | .bool value => if value then "true" else "false"

/-- The texts of several literals. -/
def Literal.texts : List Literal → List String
  | [] => []
  | literal :: rest => literal.text :: Literal.texts rest

/-- The text of an atom. -/
def Atom.text : Atom → String
  | ⟨name, arguments⟩ => name.text ++ "(" ++ commaSeparated (Term.texts arguments) ++ ")"

end

/-- The text of a clause; a fact ends after its head. -/
def Clause.text (clause : Clause) : String :=
  if clause.body.isEmpty then
    clause.head.text ++ "."
  else
    clause.head.text ++ " :- " ++ commaSeparated (Literal.texts clause.body) ++ "."

end DatalogStrata
