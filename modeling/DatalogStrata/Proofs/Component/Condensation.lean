import DatalogStrata.Proofs.Component.Decomposition

/-!
# The condensation and the flags of the components

Components are numbered in the order in which the search completes them. A component is completed
after all others that it reaches, so every edge of the condensation leads from a number to a smaller
one. An edge of the condensation stands for all edges of the graph between two components, and it
is negative if one of them is. A component is marked as recursive when a walk over one edge or more
leads from one of its members back to it, and it lists the negative edges between its members.

## Main results

* `Decomposition.reverse_topological_ofInsertions` — components are numbered against the edges
* `Decomposition.Represents.recursive_iff_closedWalk` — recursion as closed walks
* `Decomposition.condensation_ofInsertions` — the condensation and the components of any graph that
  is built by insertions
-/

namespace DatalogStrata

/-- Relations that stand in ascending order are several exactly when two of them differ. -/
theorem Ascending.one_lt_size_iff {relations : Array RelationId}
    (ascending : Ascending relations.toList) :
    1 < relations.size ↔ ∃ u ∈ relations, ∃ v ∈ relations, u ≠ v := by
  rw [← Array.length_toList, ← List.toFinset_card_of_nodup ascending.nodup, Finset.one_lt_card]
  simp only [List.mem_toFinset, Array.mem_toList_iff]

namespace Decomposition

variable {decomposition : Decomposition} {graph : Graph RelationId} {i j id : ComponentId}
  {component a b : Component} {u v : RelationId}

/-! ## The order of completion -/

/-- A component that reaches another one has the greater number. -/
theorem index_lt_of_reaches (wellFormed : graph.WellFormed)
    (foundA : (ofGraph graph).component? i = some a) (foundB : (ofGraph graph).component? j = some b)
    (different : i ≠ j) (inA : u ∈ a.members) (inB : v ∈ b.members) (reach : graph.Reaches u v) :
    j.index < i.index := by
  refine Nat.lt_of_le_of_ne (index_le_of_reaches wellFormed foundA foundB inA inB reach) ?_
  exact fun same => different (congrArg ComponentId.mk same.symm)

/-- An edge of the graph leads from a component to itself or to one with a smaller number. -/
theorem eq_or_index_lt_of_hasEdge (wellFormed : graph.WellFormed) (edge : graph.HasEdge u v)
    (ownedU : (ofGraph graph).owner? u = some i) (ownedV : (ofGraph graph).owner? v = some j) :
    i = j ∨ j.index < i.index := by
  obtain ⟨a, foundA, inA⟩ := mem_of_owner? ownedU
  obtain ⟨b, foundB, inB⟩ := mem_of_owner? ownedV
  by_cases same : i = j
  · exact Or.inl same
  · exact Or.inr (index_lt_of_reaches wellFormed foundA foundB same inA inB (.single edge))

/-- Whatever has been inserted, the components are numbered against the edges. A component that
reaches another one has the greater number, so the edges of the condensation lead from greater
numbers to smaller ones and close no cycle, and so do the edges of the graph between different
components, whose ends all have an owner. -/
theorem reverse_topological_ofInsertions (log : List (Insertion RelationId)) :
    let graph := Graph.ofInsertions log
    let decomposition := ofGraph graph
    (∀ i j a b, decomposition.component? i = some a → decomposition.component? j = some b → i ≠ j →
      (∃ u ∈ a.members, ∃ v ∈ b.members, graph.Reaches u v) → j.index < i.index) ∧
    (∀ i j, decomposition.condensation.HasEdge i j → j.index < i.index) ∧
    (∀ i, ¬ Relation.TransGen decomposition.condensation.HasEdge i i) ∧
    ∀ edge ∈ graph.edges, ∃ i j, decomposition.owner? edge.source = some i ∧
      decomposition.owner? edge.target = some j ∧ (i = j ∨ j.index < i.index) := by
  intro graph decomposition
  have wellFormed : graph.WellFormed := Graph.wellFormed_ofInsertions log
  have represents : decomposition.Represents graph := represents_ofGraph wellFormed
  refine ⟨?_, ?_, represents.not_transGen_self, ?_⟩
  · rintro i j a b foundA foundB different ⟨u, inA, v, inB, reach⟩
    exact index_lt_of_reaches wellFormed foundA foundB different inA inB reach
  · intro i j edge
    obtain ⟨different, u, v, leads, ownedU, ownedV⟩ := represents.condensation_edge_iff.mp edge
    exact (eq_or_index_lt_of_hasEdge wellFormed leads ownedU ownedV).resolve_left different
  · intro edge listed
    have leads : graph.HasEdge edge.source edge.target := ⟨edge.polarity, listed⟩
    obtain ⟨vertexU, vertexV⟩ := Graph.mem_vertices_of_hasEdge leads
    obtain ⟨i, ownedU⟩ := represents.owner?_isSome_iff.mpr vertexU
    obtain ⟨j, ownedV⟩ := represents.owner?_isSome_iff.mpr vertexV
    exact ⟨i, j, ownedU, ownedV, eq_or_index_lt_of_hasEdge wellFormed leads ownedU ownedV⟩

/-- Two relations that lead to a third one, of which the second is a later root of the search. -/
def sharedTarget : List (Insertion RelationId) :=
  [.edge ⟨⟨0⟩, ⟨1⟩, .positive⟩, .edge ⟨⟨2⟩, ⟨1⟩, .negative⟩]

theorem sharedTarget_later_root :
    ∃ i j a b, (ofGraph (Graph.ofInsertions sharedTarget)).component? i = some a ∧
      (ofGraph (Graph.ofInsertions sharedTarget)).component? j = some b ∧
        ⟨2⟩ ∈ a.members ∧ ⟨1⟩ ∈ b.members ∧ j.index < i.index := by
  have edge : (Graph.ofInsertions sharedTarget).HasEdge ⟨2⟩ ⟨1⟩ := ⟨.negative, by decide⟩
  have represents := represents_ofGraph (Graph.wellFormed_ofInsertions sharedTarget)
  obtain ⟨i, a, foundA, inA⟩ := represents.covers (Graph.mem_vertices_of_hasEdge edge).1
  obtain ⟨j, b, foundB, inB⟩ := represents.covers (Graph.mem_vertices_of_hasEdge edge).2
  have different : i ≠ j := by
    rw [ne_eq, represents.same_iff foundA foundB inA inB]
    rintro ⟨-, back⟩
    -- No edge begins at the shared relation, so there is no way back.
    obtain same | ⟨next, ⟨polarity, listed⟩, -⟩ := Relation.ReflTransGen.cases_head back
    · exact absurd same (by decide)
    · have begins : ∀ edge ∈ (Graph.ofInsertions sharedTarget).edges, edge.source ≠ ⟨1⟩ := by decide
      exact begins _ listed rfl
  exact ⟨i, j, a, b, foundA, foundB, inA, inB, (reverse_topological_ofInsertions sharedTarget).1
    i j a b foundA foundB different ⟨_, inA, _, inB, .single edge⟩⟩

/-! ## Recursion -/

namespace Represents

variable (represents : decomposition.Represents graph)
include represents

/-- A component is recursive exactly when a walk over one edge or more leads from a member back to
it. -/
theorem recursive_iff_closedWalk (found : decomposition.component? id = some component) :
    component.recursive = true ↔
      ∃ v ∈ component.members, Relation.TransGen graph.HasEdge v v := by
  rw [represents.recursive_iff found, (represents.ascending found).one_lt_size_iff]
  constructor
  · rintro (⟨u, inU, v, inV, different⟩ | ⟨v, member, loop⟩)
    · -- Two different members reach each other, and the way there has at least one edge.
      obtain ⟨forth, back⟩ := (represents.same_iff found found inU inV).mp rfl
      have away : Relation.TransGen graph.HasEdge u v :=
        (Relation.reflTransGen_iff_eq_or_transGen.mp forth).resolve_left different.symm
      exact ⟨u, inU, away.trans_left back⟩
    · exact ⟨v, member, .single loop⟩
  · rintro ⟨v, member, walk⟩
    obtain ⟨next, edge, back⟩ := Relation.TransGen.head'_iff.mp walk
    -- The first vertex of the walk after the member is in the component as well.
    obtain ⟨other, component', foundNext, inNext⟩ :=
      represents.covers (Graph.mem_vertices_of_hasEdge edge).2
    obtain rfl := (represents.same_iff found foundNext member inNext).mpr ⟨.single edge, back⟩
    obtain rfl := Option.some_inj.mp (found.symm.trans foundNext)
    by_cases same : next = v
    · exact Or.inr ⟨v, member, same ▸ edge⟩
    · exact Or.inl ⟨next, inNext, v, member, same⟩

/-- Edges between owners are edges between members. -/
theorem owned_iff {edge : RelationId → RelationId → Prop} :
    (∃ u v, edge u v ∧ decomposition.owner? u = some i ∧ decomposition.owner? v = some j) ↔
      ∃ a b, decomposition.component? i = some a ∧ decomposition.component? j = some b ∧
        ∃ u ∈ a.members, ∃ v ∈ b.members, edge u v := by
  simp only [represents.owner?_eq_some_iff]
  constructor
  · rintro ⟨u, v, leads, ⟨a, foundA, inA⟩, b, foundB, inB⟩
    exact ⟨a, b, foundA, foundB, u, inA, v, inB, leads⟩
  · rintro ⟨a, b, foundA, foundB, u, inA, v, inB, leads⟩
    exact ⟨u, v, leads, ⟨a, foundA, inA⟩, b, foundB, inB⟩

end Represents

/-! ## What is listed -/

/-- The negative edges inside a component are those of the graph that have both ends in it, in the
order in which the graph lists them. -/
theorem negativeEdges_ofGraph (found : (ofGraph graph).component? id = some component) :
    component.negativeEdges = (graph.edges.filter fun edge => edge.polarity = .negative ∧
      edge.source ∈ component.members ∧ edge.target ∈ component.members).map
        fun edge => (edge.source, edge.target) := by
  obtain ⟨positions, -, rfl⟩ := component?_ofGraph.mp found
  -- Both lists run through the edges of the graph, so it is enough to look at one edge.
  rw [componentOf, ← List.filterMap_eq_filter, List.map_filterMap]
  refine List.filterMap_congr fun edge _ => ?_
  simp only [internalNegative?, Polarity.isNegative_iff, List.mem_toArray, Option.guard,
    decide_eq_true_eq]
  split <;> rfl

/-- Whatever has been inserted, the condensation and the components say of the graph just what they
should. The vertices of the condensation are the numbers of the components, in order. It has an
edge between two different components when the graph has one between their members, and this edge
is negative when one of those edges is. A component lists the negative edges of the graph between
its members, in the order of the graph, and it is recursive when one of its members lies on a
closed walk. -/
theorem condensation_ofInsertions (log : List (Insertion RelationId)) :
    let graph := Graph.ofInsertions log
    let decomposition := ofGraph graph
    let condensation := decomposition.condensation
    condensation.vertices.toList = (List.range decomposition.size).map ComponentId.mk ∧
    (∀ c d, condensation.HasEdge c d ↔ c ≠ d ∧ ∃ a b, decomposition.component? c = some a ∧
      decomposition.component? d = some b ∧
        ∃ u ∈ a.members, ∃ v ∈ b.members, graph.HasEdge u v) ∧
    (∀ c d, (⟨c, d, .negative⟩ : Edge ComponentId) ∈ condensation.edges ↔
      c ≠ d ∧ ∃ a b, decomposition.component? c = some a ∧ decomposition.component? d = some b ∧
        ∃ u ∈ a.members, ∃ v ∈ b.members, (⟨u, v, .negative⟩ : Edge RelationId) ∈ graph.edges) ∧
    (∀ c d, (⟨c, d, .positive⟩ : Edge ComponentId) ∈ condensation.edges ↔
      condensation.HasEdge c d ∧ (⟨c, d, .negative⟩ : Edge ComponentId) ∉ condensation.edges) ∧
    ∀ c component, decomposition.component? c = some component →
      component.negativeEdges = (graph.edges.filter fun edge => edge.polarity = .negative ∧
        edge.source ∈ component.members ∧ edge.target ∈ component.members).map
          (fun edge => (edge.source, edge.target)) ∧
      (component.recursive = true ↔
        ∃ v ∈ component.members, Relation.TransGen graph.HasEdge v v) := by
  intro graph decomposition condensation
  have represents : decomposition.Represents graph :=
    represents_ofGraph (Graph.wellFormed_ofInsertions log)
  refine ⟨represents.condensation_vertices, ?_, ?_, ?_, ?_⟩
  · intro c d
    rw [represents.condensation_edge_iff, represents.owned_iff]
  · intro c d
    rw [condensation_negative_ofGraph, represents.owned_iff]
  · exact fun c d => represents.condensation_wellFormed.positive_iff
  · intro c component found
    exact ⟨negativeEdges_ofGraph found, represents.recursive_iff_closedWalk found⟩

/-- Two relations that negate each other, one that negates itself, and edges of both signs from the
first two to the last. -/
def negatedCycle : List (Insertion RelationId) :=
  [.edge ⟨⟨2⟩, ⟨0⟩, .negative⟩, .edge ⟨⟨0⟩, ⟨2⟩, .negative⟩, .edge ⟨⟨1⟩, ⟨1⟩, .negative⟩,
    .edge ⟨⟨2⟩, ⟨1⟩, .positive⟩, .edge ⟨⟨0⟩, ⟨1⟩, .negative⟩]

theorem negatedCycle_component :
    ∃ id component, (ofGraph (Graph.ofInsertions negatedCycle)).component? id = some component ∧
      (⟨2⟩, ⟨0⟩) ∈ component.negativeEdges ∧ (⟨0⟩, ⟨2⟩) ∈ component.negativeEdges ∧
        component.recursive = true := by
  have forth : (⟨⟨0⟩, ⟨2⟩, .negative⟩ : Edge RelationId) ∈
      (Graph.ofInsertions negatedCycle).edges := by decide
  have back : (⟨⟨2⟩, ⟨0⟩, .negative⟩ : Edge RelationId) ∈
      (Graph.ofInsertions negatedCycle).edges := by decide
  have away : (Graph.ofInsertions negatedCycle).HasEdge ⟨0⟩ ⟨2⟩ := ⟨.negative, forth⟩
  have home : (Graph.ofInsertions negatedCycle).HasEdge ⟨2⟩ ⟨0⟩ := ⟨.negative, back⟩
  have represents := represents_ofGraph (Graph.wellFormed_ofInsertions negatedCycle)
  obtain ⟨id, component, found, zero, two⟩ := (represents.together_iff
    (Graph.mem_vertices_of_hasEdge away).1 (Graph.mem_vertices_of_hasEdge away).2).mpr
      ⟨.single away, .single home⟩
  obtain ⟨listed, recursive⟩ :=
    (condensation_ofInsertions negatedCycle).2.2.2.2 id component found
  refine ⟨id, component, found, ?_, ?_, recursive.mpr ⟨⟨0⟩, zero, .tail (.single away) home⟩⟩
  · rw [listed]
    exact List.mem_map_of_mem (List.mem_filter.mpr ⟨back, by simp [zero, two]⟩)
  · rw [listed]
    exact List.mem_map_of_mem (List.mem_filter.mpr ⟨forth, by simp [zero, two]⟩)

end Decomposition

end DatalogStrata
