import DatalogStrata.Name

/-!
# Clauses

A clause defines the relation of its head by a body of literals. Terms, literals and atoms are
mutually nested: an aggregate is a term and carries a body of its own, so an atom can stand
arbitrarily deep inside the arguments of another one.

## Main definitions

* `Constant`, `Comparison`, `Aggregator` — the leaves
* `Term`, `Literal`, `Atom` — the nested part
* `Clause` — a head and a body; a clause with an empty body is a fact
-/

namespace DatalogStrata

/-- A constant of a program: a 64-bit number or a text. -/
inductive Constant where
  | number (value : Int64)
  | symbol (value : String)
deriving DecidableEq, Repr

/-- An operator between the two sides of a constraint. -/
inductive Comparison where
  | equal
  | notEqual
  | less
  | lessEqual
  | greater
  | greaterEqual
deriving DecidableEq, Repr

namespace Comparison

/-- All operators. -/
def all : List Comparison :=
  [equal, notEqual, less, lessEqual, greater, greaterEqual]

/-- The written form of an operator. -/
def text : Comparison → String
  | equal => "="
  | notEqual => "!="
  | less => "<"
  | lessEqual => "<="
  | greater => ">"
  | greaterEqual => ">="

/-- The operator with a given written form. -/
def parse? (text : String) : Option Comparison :=
  all.find? fun op => op.text = text

end Comparison

/-- What an aggregate computes over the solutions of its body. -/
inductive Aggregator where
  | min
  | max
  | count
  | sum
deriving DecidableEq, Repr

namespace Aggregator

/-- All aggregators. -/
def all : List Aggregator :=
  [min, max, count, sum]

/-- The keyword of an aggregator. -/
def text : Aggregator → String
  | min => "min"
  | max => "max"
  | count => "count"
  | sum => "sum"

/-- The aggregator with a given keyword. -/
def parse? (text : String) : Option Aggregator :=
  all.find? fun op => op.text = text

end Aggregator

mutual

/-- What stands in an argument position. -/
inductive Term where
  | variable (name : String)
  | constant (value : Constant)
  /-- A value that is not looked at. -/
  | placeholder
  | record (fields : List Term)
  | functor (name : String) (arguments : List Term)
  /-- An aggregate of an optional target over the solutions of a body. -/
  | aggregate (operator : Aggregator) (target : Option Term) (body : List Literal)

/-- What stands in a body. -/
inductive Literal where
  | atom (atom : Atom)
  | negation (atom : Atom)
  | constraint (left : Term) (comparison : Comparison) (right : Term)
  | bool (value : Bool)

/-- A relation applied to arguments. -/
structure Atom where
  name : Name
  arguments : List Term

end

/-- A head and the body that defines it. -/
structure Clause where
  head : Atom
  body : List Literal

end DatalogStrata
