import DatalogStrata.Clause.Occurrence
import Mathlib.Data.List.Basic

/-!
# Where an atom occurs

That an atom occurs in a term or in a literal is said by rules, one for each place where a part of
it can stand. The walk over a clause finds exactly what the rules derive.

## Main definitions

* `Term.Contains`, `Literal.Contains` — an occurrence stands somewhere in a term or a literal
* `Clause.BodyContains`, `Clause.HeadContains` — an occurrence stands in the body, or in an argument
  of the head

## Main results

* `Literal.mem_collect_iff` — the walk adds the occurrences of what it walks over
* `Clause.mem_bodyOccurrences_iff`, `Clause.mem_headAtoms_iff` — the occurrences of a clause
-/

namespace DatalogStrata

mutual

/-- An occurrence stands in a term: in a field of a record, in an argument of a functor, in the
target of an aggregate or in its body. -/
inductive Term.Contains : Term → Occurrence → Prop
  | field {fields : List Term} {term : Term} {o : Occurrence}
      (member : term ∈ fields) (inside : term.Contains o) : (Term.record fields).Contains o
  | functorArgument {name : String} {arguments : List Term} {term : Term} {o : Occurrence}
      (member : term ∈ arguments) (inside : term.Contains o) :
      (Term.functor name arguments).Contains o
  | target {operator : Aggregator} {target : Term} {body : List Literal} {o : Occurrence}
      (inside : target.Contains o) : (Term.aggregate operator (some target) body).Contains o
  | body {operator : Aggregator} {target : Option Term} {body : List Literal} {literal : Literal}
      {o : Occurrence} (member : literal ∈ body) (inside : literal.Contains o) :
      (Term.aggregate operator target body).Contains o

/-- An occurrence stands in a literal: it is its own atom, or it stands in an argument of that atom
or on a side of a constraint. -/
inductive Literal.Contains : Literal → Occurrence → Prop
  | atom {atom : Atom} : (Literal.atom atom).Contains ⟨atom, false⟩
  | negation {atom : Atom} : (Literal.negation atom).Contains ⟨atom, true⟩
  | atomArgument {atom : Atom} {term : Term} {o : Occurrence}
      (member : term ∈ atom.arguments) (inside : term.Contains o) :
      (Literal.atom atom).Contains o
  | negationArgument {atom : Atom} {term : Term} {o : Occurrence}
      (member : term ∈ atom.arguments) (inside : term.Contains o) :
      (Literal.negation atom).Contains o
  | left {left right : Term} {comparison : Comparison} {o : Occurrence}
      (inside : left.Contains o) : (Literal.constraint left comparison right).Contains o
  | right {left right : Term} {comparison : Comparison} {o : Occurrence}
      (inside : right.Contains o) : (Literal.constraint left comparison right).Contains o

end

namespace Clause

/-- An occurrence stands in the body of a clause. -/
def BodyContains (clause : Clause) (o : Occurrence) : Prop :=
  ∃ literal ∈ clause.body, literal.Contains o

/-- An occurrence stands in an argument of the head of a clause. -/
def HeadContains (clause : Clause) (o : Occurrence) : Prop :=
  ∃ term ∈ clause.head.arguments, term.Contains o

end Clause

/-! ## The rules read backwards -/

section

variable {o : Occurrence} {fields : List Term} {literals : List Literal} {atom : Atom}

theorem Term.contains_record_iff :
    (Term.record fields).Contains o ↔ ∃ term ∈ fields, term.Contains o := by
  constructor
  · intro contains
    cases contains with
    | field member inside => exact ⟨_, member, inside⟩
  · rintro ⟨term, member, inside⟩
    exact .field member inside

theorem Term.contains_functor_iff {name : String} :
    (Term.functor name fields).Contains o ↔ ∃ term ∈ fields, term.Contains o := by
  constructor
  · intro contains
    cases contains with
    | functorArgument member inside => exact ⟨_, member, inside⟩
  · rintro ⟨term, member, inside⟩
    exact .functorArgument member inside

theorem Term.contains_aggregate_iff {operator : Aggregator} {target : Option Term} :
    (Term.aggregate operator target literals).Contains o ↔
      (∃ term ∈ target, term.Contains o) ∨ ∃ literal ∈ literals, literal.Contains o := by
  constructor
  · intro contains
    cases contains with
    | target inside => exact Or.inl ⟨_, rfl, inside⟩
    | body member inside => exact Or.inr ⟨_, member, inside⟩
  · rintro (⟨term, rfl, inside⟩ | ⟨literal, member, inside⟩)
    · exact .target inside
    · exact .body member inside

theorem Literal.contains_atom_iff : (Literal.atom atom).Contains o ↔
    o = ⟨atom, false⟩ ∨ ∃ term ∈ atom.arguments, term.Contains o := by
  constructor
  · intro contains
    cases contains with
    | atom => exact Or.inl rfl
    | atomArgument member inside => exact Or.inr ⟨_, member, inside⟩
  · rintro (rfl | ⟨term, member, inside⟩)
    · exact .atom
    · exact .atomArgument member inside

theorem Literal.contains_negation_iff : (Literal.negation atom).Contains o ↔
    o = ⟨atom, true⟩ ∨ ∃ term ∈ atom.arguments, term.Contains o := by
  constructor
  · intro contains
    cases contains with
    | negation => exact Or.inl rfl
    | negationArgument member inside => exact Or.inr ⟨_, member, inside⟩
  · rintro (rfl | ⟨term, member, inside⟩)
    · exact .negation
    · exact .negationArgument member inside

theorem Literal.contains_constraint_iff {left right : Term} {comparison : Comparison} :
    (Literal.constraint left comparison right).Contains o ↔
      left.Contains o ∨ right.Contains o := by
  constructor
  · intro contains
    cases contains with
    | left inside => exact Or.inl inside
    | right inside => exact Or.inr inside
  · rintro (inside | inside)
    · exact .left inside
    · exact .right inside

end

/-! ## The walk -/

section

variable {o : Occurrence}

mutual

/-- The walk over a term adds exactly what stands in it. -/
theorem Term.mem_collect_iff (found : Array Occurrence) :
    ∀ term : Term, o ∈ term.collect found ↔ o ∈ found ∨ term.Contains o
  | .variable _ => by
    rw [Term.collect]
    exact (or_iff_left (by rintro ⟨⟩)).symm
  | .constant _ => by
    rw [Term.collect]
    exact (or_iff_left (by rintro ⟨⟩)).symm
  | .placeholder => by
    rw [Term.collect]
    exact (or_iff_left (by rintro ⟨⟩)).symm
  | .record fields => by
    rw [Term.collect, Term.mem_collectAll_iff, Term.contains_record_iff]
  | .functor _ arguments => by
    rw [Term.collect, Term.mem_collectAll_iff, Term.contains_functor_iff]
  | .aggregate _ none body => by
    rw [Term.collect, Literal.mem_collectAll_iff, Term.contains_aggregate_iff]
    simp only [Option.not_mem_none, false_and, exists_false, false_or]
  | .aggregate _ (some target) body => by
    -- The target is walked over first, and its occurrences stand before those of the body.
    rw [Term.collect, Literal.mem_collectAll_iff, Term.mem_collect_iff, or_assoc,
      Term.contains_aggregate_iff]
    simp only [Option.mem_some_iff, exists_eq_left']

theorem Term.mem_collectAll_iff (found : Array Occurrence) :
    ∀ terms : List Term, o ∈ Term.collectAll found terms ↔
      o ∈ found ∨ ∃ term ∈ terms, term.Contains o
  | [] => by
    rw [Term.collectAll]
    simp only [List.not_mem_nil, false_and, exists_false, or_false]
  | term :: rest => by
    rw [Term.collectAll, Term.mem_collectAll_iff, Term.mem_collect_iff, or_assoc,
      List.exists_mem_cons_iff]

/-- The walk over a literal adds exactly what stands in it. -/
theorem Literal.mem_collect_iff (found : Array Occurrence) :
    ∀ literal : Literal, o ∈ literal.collect found ↔ o ∈ found ∨ literal.Contains o
  | .atom atom => by
    rw [Literal.collect, Atom.mem_collectNested_iff, Array.mem_push, or_assoc,
      Literal.contains_atom_iff]
  | .negation atom => by
    rw [Literal.collect, Atom.mem_collectNested_iff, Array.mem_push, or_assoc,
      Literal.contains_negation_iff]
  | .constraint left _ right => by
    rw [Literal.collect, Term.mem_collect_iff, Term.mem_collect_iff, or_assoc,
      Literal.contains_constraint_iff]
  | .bool _ => by
    rw [Literal.collect]
    exact (or_iff_left (by rintro ⟨⟩)).symm

theorem Literal.mem_collectAll_iff (found : Array Occurrence) :
    ∀ literals : List Literal, o ∈ Literal.collectAll found literals ↔
      o ∈ found ∨ ∃ literal ∈ literals, literal.Contains o
  | [] => by
    rw [Literal.collectAll]
    simp only [List.not_mem_nil, false_and, exists_false, or_false]
  | literal :: rest => by
    rw [Literal.collectAll, Literal.mem_collectAll_iff, Literal.mem_collect_iff, or_assoc,
      List.exists_mem_cons_iff]

theorem Atom.mem_collectNested_iff (found : Array Occurrence) :
    ∀ atom : Atom, o ∈ atom.collectNested found ↔
      o ∈ found ∨ ∃ term ∈ atom.arguments, term.Contains o
  | ⟨_, arguments⟩ => by
    rw [Atom.collectNested, Term.mem_collectAll_iff]

end

namespace Clause

variable {clause : Clause}

/-- The walk over the body finds what occurs in it. -/
theorem mem_bodyOccurrences_iff : o ∈ clause.bodyOccurrences ↔ clause.BodyContains o := by
  rw [bodyOccurrences, Array.mem_toList_iff, Literal.mem_collectAll_iff, BodyContains]
  exact or_iff_right (Array.not_mem_empty o)

/-- The walk over the head finds the atoms that occur in its arguments. -/
theorem mem_headAtoms_iff {atom : Atom} :
    atom ∈ clause.headAtoms ↔ ∃ o, clause.HeadContains o ∧ o.atom = atom := by
  rw [headAtoms, List.mem_map]
  refine exists_congr fun o => and_congr_left' ?_
  rw [Array.mem_toList_iff, Atom.mem_collectNested_iff, HeadContains]
  exact or_iff_right (Array.not_mem_empty o)

end Clause

end

end DatalogStrata
