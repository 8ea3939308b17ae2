import DatalogStrata.Proofs.CommandLine.Simulation
import DatalogStrata.Proofs.Stratum.Agreement
import Mathlib.Algebra.Module.Submodule.Lattice
import Mathlib.Computability.Primrec.List
import Mathlib.Data.List.Permutation

/-!
# What a rejection tells

A strongly connected component is unsafe when a negative edge has both ends in it. This can be said
of a graph and a list of relations without any search: the members reach each other and nothing else
that reaches them back. The unsafe components that are found are all of these, in the order of their
first declarations. The first one is reported; a warning tells each of the others.

## Main definitions

* `Graph.IsUnsafe` — a strongly connected component with a negative edge inside
* `Graph.negativeInside` — the negative edges inside
* `Precedence.cycleAmong` — how a component is described
* `NegationCycle.warning` — the record about a component that is not reported

## Main results

* `Decomposition.Represents.isUnsafe_iff` — the unsafe components are those that are found
* `Precedence.negationCycles_eq` — the unsafe components are described by their members
* `Precedence.eq_of_cycleAmong` — an unsafe component is known by its description
* `Precedence.warnings_eq` — the warnings of an analysis
* `rejection_tells_unsafe_components` — what a rejection tells, and what its warnings tell
-/

namespace DatalogStrata

/-- A class of vertices that reach each other, in declaration order, with a negative edge between
two of them. -/
structure Graph.IsUnsafe (graph : Graph RelationId) (members : List RelationId) : Prop where
  ascending : Ascending members
  class_iff : ∀ v ∈ members, ∀ w, w ∈ members ↔ graph.Reaches v w ∧ graph.Reaches w v
  negative : ∃ u ∈ members, ∃ v ∈ members, (⟨u, v, .negative⟩ : Edge RelationId) ∈ graph.edges

namespace Graph

/-- The negative edges between some vertices, in the order of the graph. -/
def negativeInside (graph : Graph RelationId) (members : List RelationId) :
    List (Edge RelationId) :=
  graph.edges.filter fun edge =>
    edge.polarity = .negative ∧ edge.source ∈ members ∧ edge.target ∈ members

variable {graph : Graph RelationId} {members : List RelationId} {edge : Edge RelationId}

theorem mem_negativeInside_iff : edge ∈ graph.negativeInside members ↔ edge ∈ graph.edges ∧
    edge.polarity = .negative ∧ edge.source ∈ members ∧ edge.target ∈ members := by
  rw [negativeInside, List.mem_filter, decide_eq_true_eq]

namespace IsUnsafe

variable (isUnsafe : graph.IsUnsafe members)
include isUnsafe

theorem negativeInside_ne_nil : graph.negativeInside members ≠ [] := by
  obtain ⟨u, source, v, target, edge⟩ := isUnsafe.negative
  exact List.ne_nil_of_mem (mem_negativeInside_iff.mpr ⟨edge, rfl, source, target⟩)

/-- Both ends of an edge inside reach each other, so the edge lies on a cycle. -/
theorem reaches_of_mem (inside : edge ∈ graph.negativeInside members) :
    graph.Reaches edge.target edge.source := by
  obtain ⟨-, -, source, target⟩ := mem_negativeInside_iff.mp inside
  exact ((isUnsafe.class_iff edge.target target edge.source).mp source).1

end IsUnsafe

end Graph

/-! ## The unsafe components -/

namespace Decomposition.Represents

variable {decomposition : Decomposition} {graph : Graph RelationId} {members : List RelationId}
  {id : ComponentId} {component : Component} (represents : decomposition.Represents graph)
include represents

theorem isUnsafe_of_component (found : decomposition.component? id = some component)
    (negative : component.negativeEdges ≠ []) : graph.IsUnsafe component.members.toList where
  ascending := represents.ascending found
  class_iff := by
    simp only [Array.mem_toList_iff]
    intro v member w
    exact represents.mem_members_iff_reaches found member
  negative := by
    obtain ⟨⟨u, v⟩, inside⟩ := List.exists_mem_of_ne_nil _ negative
    obtain ⟨source, target, edge⟩ := (represents.negative_iff found).mp inside
    exact ⟨u, Array.mem_toList_iff.mpr source, v, Array.mem_toList_iff.mpr target, edge⟩

theorem component_of_isUnsafe (isUnsafe : graph.IsUnsafe members) :
    ∃ id component, decomposition.component? id = some component ∧
      component.negativeEdges ≠ [] ∧ component.members.toList = members := by
  obtain ⟨u, source, v, target, edge⟩ := isUnsafe.negative
  have vertex := (Graph.mem_vertices_of_hasEdge ⟨.negative, edge⟩).1
  obtain ⟨id, component, found, inside⟩ := represents.covers vertex
  -- Both lists hold what reaches the source and is reached from it.
  have same (w : RelationId) : w ∈ component.members ↔ w ∈ members := by
    rw [represents.mem_members_iff_reaches found inside, isUnsafe.class_iff u source]
  refine ⟨id, component, found, ?_, ?_⟩
  · have listed := (represents.negative_iff found).mpr ⟨inside, (same v).mpr target, edge⟩
    exact List.ne_nil_of_mem listed
  · apply (represents.ascending found).eq_of_mem_iff isUnsafe.ascending
    intro w
    rw [Array.mem_toList_iff, same]

theorem mem_unsafeComponents_iff : component ∈ Precedence.unsafeComponents decomposition ↔
    component.negativeEdges ≠ [] ∧ ∃ id, decomposition.component? id = some component := by
  rw [Precedence.mem_unsafeComponents_iff, mem_components_iff]
  constructor
  · intro isUnsafe
    exact ⟨isUnsafe.2.2, isUnsafe.1⟩
  · intro isUnsafe
    obtain ⟨negative, id, found⟩ := isUnsafe
    -- A negative edge inside has a way back, so the component is recursive.
    exact ⟨⟨id, found⟩, represents.recursive_of_negative found negative, negative⟩

/-- The unsafe components are those that are found, by their members. -/
theorem isUnsafe_iff : graph.IsUnsafe members ↔ members ∈
    (Precedence.unsafeComponents decomposition).map fun component => component.members.toList := by
  simp only [List.mem_map, represents.mem_unsafeComponents_iff]
  constructor
  · intro isUnsafe
    obtain ⟨id, component, found, negative, same⟩ := represents.component_of_isUnsafe isUnsafe
    exact ⟨component, ⟨negative, id, found⟩, same⟩
  · intro listed
    obtain ⟨component, ⟨negative, id, found⟩, rfl⟩ := listed
    exact represents.isUnsafe_of_component found negative

/-- The first declarations of the unsafe components ascend in the order in which they are found. -/
theorem firstDeclarations_unsafeComponents : (firstDeclarations
    ((Precedence.unsafeComponents decomposition).map fun component =>
      component.members.toList)).Pairwise (· < ·) := by
  have declaration (component : Component) :
      layerDeclaration component.members.toList = component.firstDeclared.index := by
    simp only [layerDeclaration, Component.firstDeclared, List.head?_eq_getElem?,
      Array.getElem?_toList]
  have ascending := List.pairwise_map.mp represents.unsafeComponents_ascending
  rw [firstDeclarations, List.map_map, List.pairwise_map]
  simp only [Function.comp_apply, declaration]
  exact ascending

end Decomposition.Represents

/-! ## Descriptions -/

/-- The record about a negation cycle that is not reported. -/
def NegationCycle.warning (cycle : NegationCycle) : Record :=
  ⟨.warn, .strata, "Also unstratifiable: " ++ cycle.message⟩

namespace Precedence

variable {precedence : Precedence} {rejection : Rejection}

/-- The description of a component: the names of its members, and for each negative edge inside the
names of both ends. -/
def cycleAmong (precedence : Precedence) (members : List RelationId) : NegationCycle where
  relations := members.map precedence.nameOf
  edges := (precedence.graph.negativeInside members).map fun edge =>
    (precedence.nameOf edge.source, precedence.nameOf edge.target)

/-- What is told of a component goes by its members. -/
theorem cycleOf_eq {id : ComponentId} {component : Component}
    (found : (Decomposition.ofGraph precedence.graph).component? id = some component) :
    precedence.cycleOf component = precedence.cycleAmong component.members.toList := by
  have edges := Decomposition.negativeEdges_ofGraph found
  simp only [← Array.mem_toList_iff] at edges
  rw [cycleOf, edges, List.map_map]
  rfl

/-- The negation cycles that are found describe the unsafe components by their members. -/
theorem negationCycles_eq (precedence : Precedence) :
    precedence.negationCycles (Decomposition.ofGraph precedence.graph) =
      ((unsafeComponents (Decomposition.ofGraph precedence.graph)).map fun component =>
        component.members.toList).map precedence.cycleAmong := by
  rw [negationCycles, List.map_map]
  refine List.map_congr_left fun component listed => ?_
  obtain ⟨id, found⟩ := Decomposition.mem_components_iff.mp (mem_unsafeComponents_iff.mp listed).1
  exact cycleOf_eq found

section Names

variable {program : Program} {u v : RelationId} {members others : List RelationId}

/-- What a relation depends on is what its own name means, even if several relations have the
name. -/
theorem relation?_nameOf (edge : program.precedence.graph.HasEdge u v) :
    program.resolver.relation? (program.precedence.nameOf u) = some u := by
  obtain ⟨-, clause, -, o, -, resolved⟩ := hasEdge_build.mp edge
  have same : program.precedence.program = program := program_build program program.resolver
  rw [nameOf, name?, same, Program.name_of_relation? resolved, Option.getD_some, resolved]

/-- An unsafe component is known by its description. -/
theorem eq_of_cycleAmong (isUnsafe : program.precedence.graph.IsUnsafe members)
    (otherUnsafe : program.precedence.graph.IsUnsafe others)
    (same : program.precedence.cycleAmong members = program.precedence.cycleAmong others) :
    members = others := by
  obtain ⟨edge, inside⟩ := List.exists_mem_of_ne_nil _ isUnsafe.negativeInside_ne_nil
  obtain ⟨listed, -, source, -⟩ := Graph.mem_negativeInside_iff.mp inside
  -- The edge is told by the names of its ends, and so is some edge of the other component.
  have told : (program.precedence.nameOf edge.source, program.precedence.nameOf edge.target) ∈
      (program.precedence.cycleAmong members).edges := List.mem_map_of_mem inside
  rw [same] at told
  obtain ⟨other, insideOther, names⟩ := List.mem_map.mp told
  obtain ⟨listedOther, -, sourceOther, -⟩ := Graph.mem_negativeInside_iff.mp insideOther
  have sameName : program.precedence.nameOf other.source = program.precedence.nameOf edge.source :=
    congrArg Prod.fst names
  have meant := relation?_nameOf ⟨other.polarity, listedOther⟩
  rw [sameName, relation?_nameOf ⟨edge.polarity, listed⟩] at meant
  have sameSource : edge.source = other.source := Option.some_inj.mp meant
  apply isUnsafe.ascending.eq_of_mem_iff otherUnsafe.ascending
  intro w
  rw [isUnsafe.class_iff _ source, otherUnsafe.class_iff _ sourceOther, sameSource]

end Names

/-- A rejection reports the first of the negation cycles and knows of all the others. -/
theorem eq_error_iff : precedence.stratify = .error rejection ↔
    precedence.negationCycles (Decomposition.ofGraph precedence.graph) =
      rejection.cycle :: rejection.others := by
  obtain ⟨cycle, others⟩ := rejection
  cases found : precedence.negationCycles (Decomposition.ofGraph precedence.graph) with
  | nil => simp [stratify, found]
  | cons first rest => simp [stratify, found]

/-- The warnings of an analysis tell the cycles that are not reported. -/
theorem warnings_eq (rejected : precedence.stratify = .error rejection) :
    (precedence.records ++ outcomeRecords precedence.stratify).filter
      (fun record => record.level = .warn) = rejection.others.map NegationCycle.warning := by
  have quiet : precedence.records.filter (fun record => record.level = .warn) = [] := by
    simp [records]
  have loud : rejection.records = rejection.others.map NegationCycle.warning := rfl
  rw [List.filter_append, quiet, List.nil_append, rejected, outcomeRecords, loud,
    List.filter_eq_self]
  simp [NegationCycle.warning]

end Precedence

/-- A rejection tells the unsafe component that is declared first, and its warnings tell all the
others, each once, in the order in which they are declared. An unsafe component is told by the names
of its members in declaration order and by all negative edges inside in the order of the graph;
there is at least one, and each lies on a cycle. Where names are resolved by the program itself, no
other component is described like the reported one. -/
theorem rejection_tells_unsafe_components (program : Program) (resolver : Resolver)
    {rejection : Rejection}
    (rejected : (Precedence.build program resolver).stratify = .error rejection) :
    let precedence := Precedence.build program resolver
    let graph := precedence.graph
    ∃ first others,
      (∀ members, members ∈ first :: others ↔ graph.IsUnsafe members) ∧
      (firstDeclarations (first :: others)).Pairwise (· < ·) ∧ first ∉ others ∧
      rejection = ⟨precedence.cycleAmong first, others.map precedence.cycleAmong⟩ ∧
      (resolver = program.resolver → rejection.cycle ∉ rejection.others) ∧
      (∀ members ∈ first :: others, graph.negativeInside members ≠ [] ∧
        ∀ edge ∈ graph.negativeInside members, graph.Reaches edge.target edge.source) ∧
      ∀ machine : Machine, ∃ records,
        Simulation.Tells precedence.analyse machine (.error rejection) records ∧
          records.filter (fun record => record.level = .warn) =
            others.map fun members => (precedence.cycleAmong members).warning := by
  intro precedence graph
  have represents : (Decomposition.ofGraph graph).Represents graph :=
    Decomposition.represents_ofGraph (Precedence.wellFormed_build program resolver)
  have ordered := represents.firstDeclarations_unsafeComponents
  have told := Precedence.eq_error_iff.mp rejected
  rw [Precedence.negationCycles_eq, List.map_eq_cons_iff] at told
  obtain ⟨first, others, listed, reported, rest⟩ := told
  have isUnsafe {members : List RelationId} :
      members ∈ first :: others ↔ graph.IsUnsafe members := by
    rw [represents.isUnsafe_iff, listed]
  rw [listed] at ordered
  have notAgain : first ∉ others := by
    -- What comes later has a later declaration.
    intro again
    have later := (List.pairwise_cons.mp ordered).1 _ (List.mem_map_of_mem again)
    exact Nat.lt_irrefl _ later
  refine ⟨first, others, fun members => isUnsafe, ordered, notAgain, ?_, ?_, ?_, ?_⟩
  · rw [reported, rest]
  · intro own again
    subst own
    rw [← rest, ← reported] at again
    obtain ⟨members, later, same⟩ := List.mem_map.mp again
    have equal := Precedence.eq_of_cycleAmong (isUnsafe.mp (List.mem_cons_of_mem first later))
      (isUnsafe.mp List.mem_cons_self) same
    exact notAgain (equal ▸ later)
  · intro members member
    have isUnsafe := isUnsafe.mp member
    exact ⟨isUnsafe.negativeInside_ne_nil, fun edge inside => isUnsafe.reaches_of_mem inside⟩
  · intro machine
    have runs := tells_analyse machine precedence
    refine ⟨_, rejected ▸ runs, ?_⟩
    rw [← rejected, Precedence.warnings_eq rejected, ← rest, List.map_map]
    rfl

namespace TwoCycles

/-- Two pairs of relations that negate each other around a cycle. The clauses of the pair that is
declared first come last. -/
def program : Program :=
  ⟨[⟨⟨["p"]⟩, []⟩, ⟨⟨["q"]⟩, []⟩, ⟨⟨["r"]⟩, []⟩, ⟨⟨["s"]⟩, []⟩],
    [⟨.propositional "r", [.negation (.propositional "s")]⟩,
      ⟨.propositional "s", [.atom (.propositional "r")]⟩,
      ⟨.propositional "p", [.negation (.propositional "q")]⟩,
      ⟨.propositional "q", [.atom (.propositional "p")]⟩]⟩

def precedence : Precedence :=
  Precedence.build program program.resolver

def rejection : Rejection :=
  ⟨⟨[⟨["p"]⟩, ⟨["q"]⟩], [(⟨["q"]⟩, ⟨["p"]⟩)]⟩, [⟨[⟨["r"]⟩, ⟨["s"]⟩], [(⟨["s"]⟩, ⟨["r"]⟩)]⟩]⟩

theorem rejected : precedence.stratify = .error rejection := by
  -- This computes with equations of `List.lookup`, `LE.le` and `Prod.snd`, for which Mathlib is
  -- imported here.
  cbv

/-- One pair is reported, and the analysis warns of the other one. -/
theorem second_pair_warned : precedence.stratify = .error rejection ∧
    ∃ records,
      Simulation.Tells precedence.analyse (.withFiles (.emptyAt [])) (.error rejection) records ∧
      records.filter (fun record => record.level = .warn) =
        [⟨.warn, .strata, "Also unstratifiable: Stratification error: negation through recursion " ++
          "in \x7br, s\x7d (negated: r :- !s)"⟩] := by
  obtain ⟨first, others, -, -, -, told, -, -, warned⟩ :=
    rejection_tells_unsafe_components program program.resolver rejected
  obtain ⟨records, runs, warnings⟩ := warned (.withFiles (.emptyAt []))
  have rest : others.map precedence.cycleAmong = rejection.others :=
    (congrArg Rejection.others told).symm
  have told : records.filter (fun record => record.level = .warn) =
      rejection.others.map NegationCycle.warning := by
    rw [warnings, ← rest, List.map_map]
    rfl
  exact ⟨rejected, records, runs, told.trans rfl⟩

end TwoCycles

end DatalogStrata
