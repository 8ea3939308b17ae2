import DatalogStrata.Clause.Basic

/-!
# Atoms occurring in a clause

Every atom below a body literal or below an argument of the head is an occurrence, at whatever
depth it stands: in arguments of atoms, on both sides of a constraint, in records and functors, in
the target and in the body of an aggregate. An occurrence is negated when it is the atom of a
negation itself; negations further out do not matter.

The walk is from left to right. It reports an atom before what is nested in it, and the target of
an aggregate before its body. Occurrences are appended to those already found, so one list serves
a whole clause.

## Main definitions

* `Occurrence` — an atom and whether it is negated
* `Term.collect`, `Literal.collect` — append the occurrences below a term or a literal
* `Clause.bodyOccurrences`, `Clause.headAtoms` — the occurrences of a clause
-/

namespace DatalogStrata

/-- An atom found in a clause, and whether it is the atom of a negation. -/
structure Occurrence where
  atom : Atom
  negated : Bool

mutual

/-- Append the occurrences nested in a term. -/
def Term.collect (found : Array Occurrence) : Term → Array Occurrence
  | .variable _ => found
  | .constant _ => found
  | .placeholder => found
  | .record fields => Term.collectAll found fields
  | .functor _ arguments => Term.collectAll found arguments
  | .aggregate _ none body => Literal.collectAll found body
  | .aggregate _ (some target) body => Literal.collectAll (target.collect found) body

/-- Append the occurrences nested in terms, from left to right. -/
def Term.collectAll (found : Array Occurrence) : List Term → Array Occurrence
  | [] => found
  | term :: rest => Term.collectAll (term.collect found) rest

/-- Append the occurrences of a literal: its own atom first, then those nested in its terms. -/
def Literal.collect (found : Array Occurrence) : Literal → Array Occurrence
  | .atom atom => atom.collectNested (found.push ⟨atom, false⟩)
  | .negation atom => atom.collectNested (found.push ⟨atom, true⟩)
  | .constraint left _ right => right.collect (left.collect found)
  | .bool _ => found

/-- Append the occurrences of literals, from left to right. -/
def Literal.collectAll (found : Array Occurrence) : List Literal → Array Occurrence
  | [] => found
  | literal :: rest => Literal.collectAll (literal.collect found) rest

/-- Append the occurrences nested in the arguments of an atom, without the atom itself. -/
def Atom.collectNested (found : Array Occurrence) : Atom → Array Occurrence
  | ⟨_, arguments⟩ => Term.collectAll found arguments

end

namespace Clause

/-- The occurrences in the body. -/
def bodyOccurrences (clause : Clause) : List Occurrence :=
  (Literal.collectAll #[] clause.body).toList

/-- The atoms nested in the arguments of the head, without the head itself. -/
def headAtoms (clause : Clause) : List Atom :=
  (clause.head.collectNested #[]).toList.map Occurrence.atom

end Clause

end DatalogStrata
