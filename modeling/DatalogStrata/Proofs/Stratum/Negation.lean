import DatalogStrata.Proofs.Component.Condensation
import DatalogStrata.Proofs.Dependency
import DatalogStrata.Stratum.Basic

/-!
# Negation through recursion

A program is rejected exactly when a negative dependency lies on a cycle. A negative edge with both
ends in one component has a way back, and a negative edge with a way back has both ends in one
component; that component is recursive, because the edge and the way back make a closed walk.

Only declared relations are looked at: what the clauses of an undeclared relation say makes no
dependency, so a cycle through them is not seen.

## Main definitions

* `Graph.HasNegativeCycle` — a negative edge lies on a cycle

## Main results

* `Precedence.exists_error_iff`, `Precedence.eq_ok_iff` — when a program is rejected, and what is
  returned when it is not
* `rejected_iff_negation_on_cycle` — the same by the clauses of the program
-/

namespace DatalogStrata

/-- A negative edge lies on a cycle: its target reaches its source. -/
def Graph.HasNegativeCycle (graph : Graph RelationId) : Prop :=
  ∃ u v, (⟨u, v, .negative⟩ : Edge RelationId) ∈ graph.edges ∧ graph.Reaches v u

namespace Decomposition.Represents

variable {decomposition : Decomposition} {graph : Graph RelationId}
  (represents : decomposition.Represents graph)
include represents

/-- A component that holds both ends of a negative edge is recursive. -/
theorem recursive_of_negative {id : ComponentId} {component : Component}
    (found : decomposition.component? id = some component)
    (negative : component.negativeEdges ≠ []) : component.recursive = true := by
  obtain ⟨⟨u, v⟩, inside⟩ := List.exists_mem_of_ne_nil _ negative
  obtain ⟨source, target, edge⟩ := (represents.negative_iff found).mp inside
  -- From the target a way leads back to the source, which the edge makes a closed walk.
  have back := ((represents.same_iff found found target source).mp rfl).1
  exact (represents.recursive_iff_closedWalk found).mpr ⟨u, source, .head' ⟨.negative, edge⟩ back⟩

/-- A component is unsafe exactly when a negative edge lies on a cycle. -/
theorem exists_unsafe_iff : (∃ component ∈ decomposition.components.toList,
    component.recursive = true ∧ component.negativeEdges ≠ []) ↔ graph.HasNegativeCycle := by
  constructor
  · rintro ⟨component, member, -, negative⟩
    obtain ⟨id, found⟩ := mem_components_iff.mp member
    obtain ⟨⟨u, v⟩, inside⟩ := List.exists_mem_of_ne_nil _ negative
    obtain ⟨source, target, edge⟩ := (represents.negative_iff found).mp inside
    exact ⟨u, v, edge, ((represents.same_iff found found target source).mp rfl).1⟩
  · rintro ⟨u, v, edge, back⟩
    have leads : graph.HasEdge u v := ⟨.negative, edge⟩
    obtain ⟨i, component, found, source⟩ := represents.covers (Graph.mem_vertices_of_hasEdge leads).1
    obtain ⟨j, other, foundOther, target⟩ :=
      represents.covers (Graph.mem_vertices_of_hasEdge leads).2
    obtain rfl := (represents.same_iff found foundOther source target).mpr ⟨.single leads, back⟩
    obtain rfl := Option.some_inj.mp (found.symm.trans foundOther)
    have inside := (represents.negative_iff found).mpr ⟨source, target, edge⟩
    have negative := List.ne_nil_of_mem inside
    exact ⟨component, mem_components_iff.mpr ⟨i, found⟩,
      represents.recursive_of_negative found negative, negative⟩

end Decomposition.Represents

namespace Precedence

variable {precedence : Precedence} {program : Program} {resolver : Resolver}

theorem mem_unsafeComponents_iff {decomposition : Decomposition} {component : Component} :
    component ∈ unsafeComponents decomposition ↔ component ∈ decomposition.components.toList ∧
      component.recursive = true ∧ component.negativeEdges ≠ [] := by
  rw [unsafeComponents, List.mem_mergeSort, List.mem_filter, Bool.and_eq_true, Bool.not_eq_true',
    List.isEmpty_eq_false_iff]

theorem unsafeComponents_ne_nil_iff (wellFormed : precedence.graph.WellFormed) :
    unsafeComponents (Decomposition.ofGraph precedence.graph) ≠ [] ↔
      precedence.graph.HasNegativeCycle := by
  rw [← (Decomposition.represents_ofGraph wellFormed).exists_unsafe_iff]
  constructor
  · intro some
    obtain ⟨component, member⟩ := List.exists_mem_of_ne_nil _ some
    exact ⟨component, mem_unsafeComponents_iff.mp member⟩
  · rintro ⟨component, isUnsafe⟩
    exact List.ne_nil_of_mem (mem_unsafeComponents_iff.mpr isUnsafe)

/-- What is returned by whether there are unsafe components. -/
theorem stratify_eq (precedence : Precedence) : precedence.stratify =
    match (unsafeComponents (Decomposition.ofGraph precedence.graph)).map precedence.cycleOf with
    | cycle :: others => .error ⟨cycle, others⟩
    | [] => .ok ⟨precedence, Decomposition.ofGraph precedence.graph,
        precedence.layers (Decomposition.ofGraph precedence.graph)⟩ := rfl

/-- A program is rejected exactly when a negative dependency lies on a cycle. -/
theorem exists_error_iff (wellFormed : precedence.graph.WellFormed) :
    (∃ rejection, precedence.stratify = .error rejection) ↔
      precedence.graph.HasNegativeCycle := by
  rw [← unsafeComponents_ne_nil_iff wellFormed, stratify_eq]
  cases unsafeComponents (Decomposition.ofGraph precedence.graph) with
  | nil => simp
  | cons component others => simp

/-- Without a negative dependency on a cycle the layers are returned. -/
theorem eq_ok_iff (wellFormed : precedence.graph.WellFormed) {stratification : Stratification} :
    precedence.stratify = .ok stratification ↔ ¬ precedence.graph.HasNegativeCycle ∧
      stratification = ⟨precedence, Decomposition.ofGraph precedence.graph,
        precedence.layers (Decomposition.ofGraph precedence.graph)⟩ := by
  rw [← unsafeComponents_ne_nil_iff wellFormed, stratify_eq]
  cases unsafeComponents (Decomposition.ofGraph precedence.graph) with
  | nil => simp [eq_comm]
  | cons component others => simp

/-- A program is rejected exactly when a declared relation negates something that depends on it,
along dependencies of declared relations. -/
theorem exists_error_build_iff (program : Program) (resolver : Resolver) :
    (∃ rejection, (build program resolver).stratify = .error rejection) ↔
      ∃ r ∈ program.relationIds, ∃ u, resolver.Negates r u ∧
        Relation.ReflTransGen
          (fun x y => y ∈ program.relationIds ∧ resolver.DependsOn y x) r u := by
  have edges : (build program resolver).graph.HasEdge =
      fun x y => y ∈ program.relationIds ∧ resolver.DependsOn y x := by
    funext x y
    exact propext hasEdge_build
  rw [exists_error_iff (wellFormed_build program resolver), Graph.HasNegativeCycle]
  simp only [negative_build, Graph.Reaches, edges]
  constructor
  · rintro ⟨u, r, ⟨declared, negates⟩, back⟩
    exact ⟨r, declared, u, negates, back⟩
  · rintro ⟨r, declared, u, negates, back⟩
    exact ⟨u, r, ⟨declared, negates⟩, back⟩

end Precedence

/-! ## Rejection by the clauses of the program -/

/-- A program is rejected exactly when negation lies on a cycle: some clause of a declared relation
negates a relation in its body that is the declared one or depends on it, through any number of
declared relations. A resolver that knows no clauses of undeclared relations leaves no other
relations for a cycle to pass through. -/
theorem rejected_iff_negation_on_cycle (program : Program) (resolver : Resolver) :
    ((∃ rejection, (Precedence.build program resolver).stratify = .error rejection) ↔
      ∃ r ∈ program.relationIds, ∃ u, resolver.Negates r u ∧
        Relation.ReflTransGen
          (fun x y => y ∈ program.relationIds ∧ resolver.DependsOn y x) r u) ∧
    ((∀ id, id ∉ program.relationIds → resolver.clauses id = []) →
      ((∃ rejection, (Precedence.build program resolver).stratify = .error rejection) ↔
        ∃ r ∈ program.relationIds, ∃ u, resolver.Negates r u ∧
          Relation.ReflTransGen (fun x y => resolver.DependsOn y x) r u)) := by
  refine ⟨Precedence.exists_error_build_iff program resolver, fun silent => ?_⟩
  have same : (fun x y => y ∈ program.relationIds ∧ resolver.DependsOn y x) =
      fun x y => resolver.DependsOn y x := by
    funext x y
    refine propext (and_iff_right_of_imp ?_)
    rintro ⟨clause, defines, -⟩
    by_contra undeclared
    rw [silent y undeclared] at defines
    exact List.not_mem_nil defines
  rw [Precedence.exists_error_build_iff, same]

namespace SelfNegation

/-- A relation that negates itself in an aggregate. -/
def program : Program :=
  let atom : Atom := ⟨⟨["p"]⟩, []⟩
  ⟨[⟨⟨["p"]⟩, []⟩], [⟨atom, [.constraint (.variable "n") .equal
    (.aggregate .count none [.negation atom])]⟩]⟩

theorem clauses_of_undeclared (id : RelationId) (undeclared : id ∉ program.relationIds) :
    program.resolver.clauses id = [] := by
  have outside : 1 ≤ id.index := by
    by_contra inside
    obtain ⟨index⟩ := id
    obtain rfl : index = 0 := by simpa using inside
    exact undeclared (by decide)
  have buckets : program.index.buckets.size = 1 := by decide
  change (program.index.buckets[id.index]?.getD #[]).toList = []
  rw [Array.getElem?_eq_none (by omega)]
  rfl

/-- A relation that negates itself is rejected. -/
theorem self_negation_rejected : (∀ id, id ∉ program.relationIds → program.resolver.clauses id = []) ∧
    ∃ rejection, (Precedence.build program program.resolver).stratify = .error rejection := by
  refine ⟨clauses_of_undeclared, ?_⟩
  refine ((rejected_iff_negation_on_cycle program program.resolver).2
    clauses_of_undeclared).mpr ⟨⟨0⟩, by decide, ⟨0⟩, ?_, .refl⟩
  refine ⟨_, List.mem_cons_self, ⟨⟨⟨["p"]⟩, []⟩, true⟩, ?_, rfl, rfl⟩
  exact ⟨_, List.mem_cons_self, .right (.body List.mem_cons_self .negation)⟩

end SelfNegation

namespace UndeclaredCycle

/-- A declared relation negates an undeclared one. -/
def negates : Clause :=
  ⟨⟨⟨["r"]⟩, []⟩, [.negation ⟨⟨["u"]⟩, []⟩]⟩

/-- The undeclared relation depends on the declared one in turn. -/
def returns : Clause :=
  ⟨⟨⟨["u"]⟩, []⟩, [.atom ⟨⟨["r"]⟩, []⟩]⟩

def program : Program :=
  ⟨[⟨⟨["r"]⟩, []⟩], [negates, returns]⟩

/-- The resolver knows the clauses of both relations. -/
def resolver : Resolver :=
  .ofTables [(⟨["r"]⟩, ⟨0⟩), (⟨["u"]⟩, ⟨1⟩)] [(⟨0⟩, [negates]), (⟨1⟩, [returns])]

/-- A cycle through an undeclared relation is not seen, even when its clauses are known. -/
theorem undeclared_cycle_accepted :
    ¬ ((∃ rejection, (Precedence.build program resolver).stratify = .error rejection) ↔
      ∃ r ∈ program.relationIds, ∃ u, resolver.Negates r u ∧
        Relation.ReflTransGen (fun x y => resolver.DependsOn y x) r u) := by
  intro equivalent
  have cycle : ∃ r ∈ program.relationIds, ∃ u, resolver.Negates r u ∧
      Relation.ReflTransGen (fun x y => resolver.DependsOn y x) r u := by
    refine ⟨⟨0⟩, by decide, ⟨1⟩, ?_, .single ?_⟩
    · exact ⟨negates, List.mem_cons_self, ⟨⟨⟨["u"]⟩, []⟩, true⟩,
        ⟨_, List.mem_cons_self, .negation⟩, rfl, rfl⟩
    · exact ⟨returns, List.mem_cons_self, ⟨⟨⟨["r"]⟩, []⟩, false⟩,
        Or.inl ⟨_, List.mem_cons_self, .atom⟩, rfl⟩
  obtain ⟨r, declared, u, negated, path⟩ :=
    (Precedence.exists_error_build_iff program resolver).mp (equivalent.mpr cycle)
  have only {id : RelationId} (declared : id ∈ program.relationIds) : id = ⟨0⟩ := by
    simpa [program, Program.relationIds] using declared
  obtain rfl := only declared
  -- A path that only passes through declared relations ends where it began.
  have ends : u = ⟨0⟩ := by
    cases path with
    | refl => rfl
    | tail _ edge => exact only edge.1
  subst ends
  obtain ⟨clause, defines, o, inside, -, resolved⟩ := negated
  obtain rfl : clause = negates := by
    simpa [resolver, Resolver.ofTables] using defines
  have occurs : o ∈ negates.bodyOccurrences := Clause.mem_bodyOccurrences_iff.mpr inside
  obtain rfl : o = ⟨⟨⟨["u"]⟩, []⟩, true⟩ := by
    simpa [negates, Clause.bodyOccurrences, Literal.collectAll, Literal.collect,
      Atom.collectNested, Term.collectAll] using occurs
  simp [resolver, Resolver.ofTables] at resolved

end UndeclaredCycle

end DatalogStrata
