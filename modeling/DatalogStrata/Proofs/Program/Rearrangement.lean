import DatalogStrata.Proofs.Program.Index
import DatalogStrata.Proofs.Stratum.Agreement

/-!
# Programs in another order

The order of clauses, how often one is repeated and the order of the literals in a body are the
author's business. They change the order in which vertices and edges enter the precedence graph,
the roots and the course of the search, and the numbers of components, but not which edges there
are and which of them are negative. So they change neither the strata nor whether there are any.

## Main definitions

* `RearrangedClauses` — the same clauses up to their order, repetition and the order in bodies

## Main results

* `RearrangedClauses.dependsOn_iff`, `RearrangedClauses.negates_iff` — rearranged programs have the
  same dependencies
* `stratify_order_independent` — the strata of a program do not depend on the order of its clauses
-/

namespace DatalogStrata

/-- Each clause of one list is in the other one, perhaps with its body in another order. -/
def RearrangedClauses (clauses others : List Clause) : Prop :=
  (∀ clause ∈ clauses, ∃ same ∈ others, clause.head = same.head ∧ clause.body.Perm same.body) ∧
    ∀ clause ∈ others, ∃ same ∈ clauses, clause.head = same.head ∧ clause.body.Perm same.body

theorem RearrangedClauses.symm {clauses others : List Clause}
    (rearranged : RearrangedClauses clauses others) : RearrangedClauses others clauses :=
  ⟨rearranged.2, rearranged.1⟩

namespace Clause

variable {clause other : Clause} {o : Occurrence}

theorem bodyContains_of_perm (perm : clause.body.Perm other.body) (inside : clause.BodyContains o) :
    other.BodyContains o := by
  obtain ⟨literal, member, contains⟩ := inside
  exact ⟨literal, perm.mem_iff.mp member, contains⟩

theorem headContains_of_eq (heads : clause.head = other.head) (inside : clause.HeadContains o) :
    other.HeadContains o := by
  rw [HeadContains, ← heads]
  exact inside

end Clause

section Rearranged

variable {program other : Program} (declared : program.declarations = other.declarations)
include declared

theorem relationIds_congr : program.relationIds = other.relationIds := by
  rw [Program.relationIds, Program.relationIds, declared]

variable (rearranged : RearrangedClauses program.clauses other.clauses)
include rearranged

/-- A clause of a relation has its counterpart among the clauses of that relation. -/
theorem RearrangedClauses.exists_clause {r : RelationId} {clause : Clause}
    (defines : clause ∈ program.resolver.clauses r) :
    ∃ same ∈ other.resolver.clauses r, clause.head = same.head ∧ clause.body.Perm same.body := by
  rw [Program.resolver_clauses, List.mem_filter, decide_eq_true_eq] at defines
  obtain ⟨same, member, heads, bodies⟩ := rearranged.1 clause defines.1
  refine ⟨same, ?_, heads, bodies⟩
  rw [Program.resolver_clauses, List.mem_filter, decide_eq_true_eq]
  refine ⟨member, ?_⟩
  rw [← heads, ← Program.resolver_relation?_congr declared]
  exact defines.2

theorem RearrangedClauses.dependsOn {r u : RelationId} (depends : program.resolver.DependsOn r u) :
    other.resolver.DependsOn r u := by
  obtain ⟨clause, defines, o, occurs, resolved⟩ := depends
  obtain ⟨same, sameDefines, heads, bodies⟩ := exists_clause declared rearranged defines
  refine ⟨same, sameDefines, o, ?_, Program.resolver_relation?_congr declared ▸ resolved⟩
  exact occurs.imp (Clause.bodyContains_of_perm bodies) (Clause.headContains_of_eq heads)

theorem RearrangedClauses.negates {r u : RelationId} (negates : program.resolver.Negates r u) :
    other.resolver.Negates r u := by
  obtain ⟨clause, defines, o, inside, negated, resolved⟩ := negates
  obtain ⟨same, sameDefines, heads, bodies⟩ := exists_clause declared rearranged defines
  exact ⟨same, sameDefines, o, Clause.bodyContains_of_perm bodies inside, negated,
    Program.resolver_relation?_congr declared ▸ resolved⟩

theorem RearrangedClauses.dependsOn_iff (r u : RelationId) :
    program.resolver.DependsOn r u ↔ other.resolver.DependsOn r u :=
  ⟨dependsOn declared rearranged, dependsOn declared.symm rearranged.symm⟩

theorem RearrangedClauses.negates_iff (r u : RelationId) :
    program.resolver.Negates r u ↔ other.resolver.Negates r u :=
  ⟨negates declared rearranged, negates declared.symm rearranged.symm⟩

/-- Rearranged programs have precedence graphs that agree. -/
theorem RearrangedClauses.graph_agrees :
    program.precedence.graph.Agrees other.precedence.graph := by
  apply Graph.Agrees.of_edges (Precedence.wellFormed_build program program.resolver)
    (Precedence.wellFormed_build other other.resolver)
  · intro v
    simp only [Precedence.mem_vertices_build, relationIds_congr declared,
      dependsOn_iff declared rearranged]
  · intro u v
    simp only [Precedence.hasEdge_build, relationIds_congr declared,
      dependsOn_iff declared rearranged]
  · intro u v
    simp only [Precedence.negative_build, relationIds_congr declared,
      negates_iff declared rearranged]

end Rearranged

/-- Of two programs with the same declarations whose precedence graphs have the same vertices and
the same sign between any two of them, both are accepted, with strata that agree one by one, or
both are rejected for cycles that agree. It is enough that the clauses of one are those of the
other in any order, any number of times, with their bodies in any order. -/
theorem stratify_order_independent (program other : Program)
    (declared : program.declarations = other.declarations) :
    (program.precedence.graph.Agrees other.precedence.graph →
      OutcomesAgree program.precedence.stratify other.precedence.stratify) ∧
    (RearrangedClauses program.clauses other.clauses →
      program.precedence.graph.Agrees other.precedence.graph) := by
  constructor
  · intro agrees
    apply Precedence.stratify_agrees (Precedence.wellFormed_build program program.resolver)
      (Precedence.wellFormed_build other other.resolver) agrees
    simpa only [Program.precedence, Precedence.program_build] using declared
  · intro rearranged
    exact rearranged.graph_agrees declared

namespace TwoOrders

def base : Atom := ⟨⟨["base"]⟩, []⟩

def count : Atom := ⟨⟨["count"]⟩, []⟩

/-- A relation that depends on itself and on another one, which it also negates. -/
def program : Program :=
  ⟨[⟨⟨["base"]⟩, []⟩, ⟨⟨["count"]⟩, []⟩],
    [⟨count, [.atom base, .negation base]⟩, ⟨count, [.atom count]⟩]⟩

/-- The same with the clauses in another order, one of them twice with its body turned around. -/
def rearranged : Program :=
  ⟨program.declarations,
    [⟨count, [.atom count]⟩, ⟨count, [.negation base, .atom base]⟩,
      ⟨count, [.atom base, .negation base]⟩]⟩

theorem rearrangedClauses : RearrangedClauses program.clauses rearranged.clauses := by
  have turned : [Literal.atom base, Literal.negation base].Perm [.negation base, .atom base] :=
    .swap _ _ []
  constructor
  · intro clause member
    simp only [program, List.mem_cons, List.not_mem_nil, or_false] at member
    obtain rfl | rfl := member
    · exact ⟨_, .tail _ (.head _), rfl, turned⟩
    · exact ⟨_, .head _, rfl, .refl _⟩
  · intro clause member
    simp only [rearranged, List.mem_cons, List.not_mem_nil, or_false] at member
    obtain rfl | rfl | rfl := member
    · exact ⟨_, .tail _ (.head _), rfl, .refl _⟩
    · exact ⟨_, .head _, rfl, turned.symm⟩
    · exact ⟨_, .head _, rfl, .refl _⟩

theorem accepted : ∃ s, program.precedence.stratify = .ok s := by
  cases result : program.precedence.stratify with
  | ok s => exact ⟨s, rfl⟩
  | error rejection =>
    exfalso
    obtain ⟨r, declared, u, ⟨clause, defines, o, inside, negated, resolved⟩, path⟩ :=
      (Precedence.exists_error_build_iff program program.resolver).mp ⟨rejection, result⟩
    -- Only the other relation is negated, and it has no clauses through which a path could end.
    have negates : o = ⟨base, true⟩ := by
      have member := Clause.mem_bodyOccurrences_iff.mpr inside
      rw [Program.resolver_clauses, List.mem_filter] at defines
      have listed := defines.1
      simp only [program, List.mem_cons, List.not_mem_nil, or_false] at listed
      obtain rfl | rfl := listed
      · have found : o ∈ [⟨base, false⟩, ⟨base, true⟩] := member
        simp only [List.mem_cons, List.not_mem_nil, or_false] at found
        obtain rfl | rfl := found
        · simp at negated
        · rfl
      · obtain rfl : o = ⟨count, false⟩ := List.mem_singleton.mp member
        simp at negated
    subst negates
    obtain rfl : ⟨0⟩ = u := Option.some_inj.mp resolved
    have silent : program.resolver.clauses ⟨0⟩ = [] := rfl
    cases path with
    | refl => exact List.not_mem_nil (silent ▸ defines)
    | tail _ edge =>
      obtain ⟨other, definesOther, -⟩ := edge.2
      exact List.not_mem_nil (silent ▸ definesOther)

/-- Both orders of the program are accepted, and their strata agree. -/
theorem rearranged_agrees :
    program.declarations = rearranged.declarations ∧
      RearrangedClauses program.clauses rearranged.clauses ∧
      ∃ s t, program.precedence.stratify = .ok s ∧ rearranged.precedence.stratify = .ok t ∧
        s.Agrees t := by
  obtain ⟨outcomes, graphs⟩ := stratify_order_independent program rearranged rfl
  obtain ⟨s, first⟩ := accepted
  have agree := outcomes (graphs rearrangedClauses)
  rw [first] at agree
  refine ⟨rfl, rearrangedClauses, ?_⟩
  cases second : rearranged.precedence.stratify with
  | ok t => exact ⟨s, t, first, rfl, by rwa [second] at agree⟩
  | error rejection =>
    rw [second] at agree
    exact agree.elim

end TwoOrders

end DatalogStrata
