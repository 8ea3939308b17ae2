import DatalogStrata.Clause.Occurrence
import Mathlib.Data.List.Basic

/-!
# The occurrences of a clause, part by part

The walk over a clause appends what it finds to one list that is handed from part to part. The
occurrences of a part can be told without that list: they are those of its own parts, one after
the other, behind its own atom if it has one. The walk leaves what was found before in its place
and puts the occurrences of the part behind it, one for each place in the part.

## Main definitions

* `Term.occurrences`, `Literal.occurrences` — the occurrences of a term or a literal, from left to
  right
* `Clause.occurrences` — those of the body, and then those in the arguments of the head

## Main results

* `Literal.toList_collect` — what the walk over a literal appends
* `Clause.bodyOccurrences_eq`, `Clause.headAtoms_eq` — what the walk over a clause finds
-/

namespace DatalogStrata

mutual

/-- The occurrences nested in a term; the target of an aggregate comes before its body. -/
def Term.occurrences : Term → List Occurrence
  | .variable _ => []
  | .constant _ => []
  | .placeholder => []
  | .record fields => Term.allOccurrences fields
  | .functor _ arguments => Term.allOccurrences arguments
  | .aggregate _ none body => Literal.allOccurrences body
  | .aggregate _ (some target) body => target.occurrences ++ Literal.allOccurrences body

/-- The occurrences nested in terms. -/
def Term.allOccurrences : List Term → List Occurrence
  | [] => []
  | term :: rest => term.occurrences ++ Term.allOccurrences rest

/-- The occurrences of a literal: its own atom comes before those nested in it. -/
def Literal.occurrences : Literal → List Occurrence
  | .atom atom => ⟨atom, false⟩ :: atom.nestedOccurrences
  | .negation atom => ⟨atom, true⟩ :: atom.nestedOccurrences
  | .constraint left _ right => left.occurrences ++ right.occurrences
  | .bool _ => []

/-- The occurrences of literals. -/
def Literal.allOccurrences : List Literal → List Occurrence
  | [] => []
  | literal :: rest => literal.occurrences ++ Literal.allOccurrences rest

/-- The occurrences nested in the arguments of an atom. -/
def Atom.nestedOccurrences : Atom → List Occurrence
  | ⟨_, arguments⟩ => Term.allOccurrences arguments

end

theorem Term.allOccurrences_eq (terms : List Term) :
    Term.allOccurrences terms = terms.flatMap Term.occurrences := by
  induction terms with
  | nil => rw [Term.allOccurrences, List.flatMap_nil]
  | cons term rest ih => rw [Term.allOccurrences, ih, List.flatMap_cons]

theorem Literal.allOccurrences_eq (literals : List Literal) :
    Literal.allOccurrences literals = literals.flatMap Literal.occurrences := by
  induction literals with
  | nil => rw [Literal.allOccurrences, List.flatMap_nil]
  | cons literal rest ih => rw [Literal.allOccurrences, ih, List.flatMap_cons]

theorem Atom.nestedOccurrences_eq (atom : Atom) :
    atom.nestedOccurrences = atom.arguments.flatMap Term.occurrences := by
  obtain ⟨name, arguments⟩ := atom
  rw [Atom.nestedOccurrences, Term.allOccurrences_eq]

/-! ## What the walk appends -/

mutual

/-- The walk over a term appends its occurrences. -/
theorem Term.toList_collect (found : Array Occurrence) :
    ∀ term : Term, (term.collect found).toList = found.toList ++ term.occurrences
  | .variable _ => by rw [Term.collect, Term.occurrences, List.append_nil]
  | .constant _ => by rw [Term.collect, Term.occurrences, List.append_nil]
  | .placeholder => by rw [Term.collect, Term.occurrences, List.append_nil]
  | .record fields => by rw [Term.collect, Term.toList_collectAll, Term.occurrences]
  | .functor _ arguments => by rw [Term.collect, Term.toList_collectAll, Term.occurrences]
  | .aggregate _ none body => by rw [Term.collect, Literal.toList_collectAll, Term.occurrences]
  | .aggregate _ (some target) body => by
    rw [Term.collect, Literal.toList_collectAll, Term.toList_collect, Term.occurrences,
      List.append_assoc]

theorem Term.toList_collectAll (found : Array Occurrence) :
    ∀ terms : List Term, (Term.collectAll found terms).toList =
      found.toList ++ Term.allOccurrences terms
  | [] => by rw [Term.collectAll, Term.allOccurrences, List.append_nil]
  | term :: rest => by
    rw [Term.collectAll, Term.toList_collectAll, Term.toList_collect, Term.allOccurrences,
      List.append_assoc]

/-- The walk over a literal appends its occurrences. -/
theorem Literal.toList_collect (found : Array Occurrence) :
    ∀ literal : Literal, (literal.collect found).toList = found.toList ++ literal.occurrences
  | .atom atom => by
    rw [Literal.collect, Atom.toList_collectNested, Array.toList_push, Literal.occurrences,
      List.append_assoc, List.singleton_append]
  | .negation atom => by
    rw [Literal.collect, Atom.toList_collectNested, Array.toList_push, Literal.occurrences,
      List.append_assoc, List.singleton_append]
  | .constraint left _ right => by
    rw [Literal.collect, Term.toList_collect, Term.toList_collect, Literal.occurrences,
      List.append_assoc]
  | .bool _ => by rw [Literal.collect, Literal.occurrences, List.append_nil]

theorem Literal.toList_collectAll (found : Array Occurrence) :
    ∀ literals : List Literal, (Literal.collectAll found literals).toList =
      found.toList ++ Literal.allOccurrences literals
  | [] => by rw [Literal.collectAll, Literal.allOccurrences, List.append_nil]
  | literal :: rest => by
    rw [Literal.collectAll, Literal.toList_collectAll, Literal.toList_collect,
      Literal.allOccurrences, List.append_assoc]

theorem Atom.toList_collectNested (found : Array Occurrence) :
    ∀ atom : Atom, (atom.collectNested found).toList = found.toList ++ atom.nestedOccurrences
  | ⟨_, arguments⟩ => by
    rw [Atom.collectNested, Term.toList_collectAll, Atom.nestedOccurrences]

end

namespace Clause

variable (clause : Clause)

/-- The occurrences of a clause: those of the body, and then those in the arguments of the head. -/
def occurrences : List Occurrence :=
  clause.body.flatMap Literal.occurrences ++ clause.head.arguments.flatMap Term.occurrences

theorem bodyOccurrences_eq :
    clause.bodyOccurrences = clause.body.flatMap Literal.occurrences := by
  rw [bodyOccurrences, Literal.toList_collectAll, Literal.allOccurrences_eq]
  rfl

theorem headAtoms_eq : clause.headAtoms =
    (clause.head.arguments.flatMap Term.occurrences).map Occurrence.atom := by
  rw [headAtoms, Atom.toList_collectNested, Atom.nestedOccurrences_eq]
  rfl

end Clause

end DatalogStrata
