import DatalogStrata.Proofs.Component.Representation
import DatalogStrata.Proofs.Component.Run
import DatalogStrata.Proofs.Graph.FirstInsertion

/-!
# The decomposition of a graph

The search finds the classes of positions that reach each other. Told by their labels and sorted,
they are the components, and inserting each edge between two of them into a graph of their numbers
gives the condensation, so the decomposition of a graph represents it.

## Main definitions

* `Decomposition.group` — the labels of some positions in declaration order
* `Decomposition.condensed?` — what an edge of the graph inserts into the condensation

## Main results

* `Decomposition.condensation_ofGraph` — the condensation as the graph of a log
* `Decomposition.index_le_of_reaches` — a component is completed after all others that it reaches
* `Decomposition.represents_ofGraph` — the decomposition of a graph represents it
* `Decomposition.stronglyConnected_ofInsertions` — the components of any graph that is built by
  insertions
-/

namespace DatalogStrata

namespace Decomposition

variable {graph : Graph RelationId} {id i j : ComponentId} {component a b : Component}
  {positions : List Nat} {groups : List (List RelationId)} {u v : RelationId} {sign : Polarity}

/-- The labels of some positions in declaration order. -/
def group (graph : Graph RelationId) (positions : List Nat) : List RelationId :=
  RelationId.sort (positions.filterMap (graph.vertices[·]?))

theorem groups_eq (graph : Graph RelationId) :
    Decomposition.groups graph = graph.components.map (group graph) := rfl

theorem mem_group_iff :
    v ∈ group graph positions ↔ ∃ position ∈ positions, graph.vertices[position]? = some v := by
  rw [group, RelationId.mem_sort, List.mem_filterMap]

theorem component?_ofGraph : (ofGraph graph).component? id = some component ↔
    ∃ positions, graph.components[id.index]? = some positions ∧
      componentOf graph (group graph positions) = component := by
  simp only [component?, ofGraph, groups_eq, List.map_map, List.getElem?_toArray,
    List.getElem?_map, Option.map_eq_some_iff, Function.comp_apply]

/-- The owner of a relation is the number of its group. -/
theorem owner?_ofGraph : (ofGraph graph).owner? v = groupOf? (Decomposition.groups graph) v := by
  simp only [owner?, ofGraph, groupOf?, List.findIdx?_toArray, List.findIdx?_map]
  congr 2
  funext group
  simp only [Function.comp_apply, componentOf, List.mem_toArray]

/-! ## The condensation -/

/-- What an edge of the graph inserts into the condensation: an edge between two groups, or nothing
when both of its ends are in one. -/
def condensed? (groups : List (List RelationId)) (edge : Edge RelationId) :
    Option (Insertion ComponentId) :=
  match groupOf? groups edge.source, groupOf? groups edge.target with
  | some source, some target =>
    if source = target then none else some (.edge ⟨source, target, edge.polarity⟩)
  | _, _ => none

theorem condensed?_eq_some_iff {edge : Edge RelationId} {insertion : Insertion ComponentId} :
    condensed? groups edge = some insertion ↔ ∃ source target,
      groupOf? groups edge.source = some source ∧ groupOf? groups edge.target = some target ∧
        source ≠ target ∧ insertion = .edge ⟨source, target, edge.polarity⟩ := by
  unfold condensed?
  split
  case h_1 source target atSource atTarget =>
    simp only [atSource, atTarget, Option.some_inj]
    split
    · rename_i same
      simp [same]
    · rename_i different
      constructor
      · intro inserted
        exact ⟨source, target, rfl, rfl, different, (Option.some_inj.mp inserted).symm⟩
      · rintro ⟨_, _, rfl, rfl, -, rfl⟩
        rfl
  case h_2 missing =>
    simp only [reduceCtorEq, false_iff]
    rintro ⟨source, target, atSource, atTarget, -⟩
    exact missing source target atSource atTarget

theorem foldl_condense (groups : List (List RelationId)) (edges : List (Edge RelationId)) :
    ∀ condensation : Graph ComponentId, edges.foldl (condense groups) condensation =
      (edges.filterMap (condensed? groups)).foldl Graph.insert condensation := by
  induction edges with
  | nil => exact fun _ => rfl
  | cons edge rest ih =>
    intro condensation
    have first : condense groups condensation edge =
        ((condensed? groups edge).toList).foldl Graph.insert condensation := by
      unfold condense condensed?
      cases groupOf? groups edge.source with
      | none => rfl
      | some source =>
        cases groupOf? groups edge.target with
        | none => rfl
        | some target => by_cases same : source = target <;> simp [same, Graph.insert]
    rw [List.foldl_cons, ih, first, List.filterMap_cons]
    cases condensed? groups edge <;> rfl

/-- The condensation is the graph of a log: all component numbers in order, and then what the edges
of the graph insert. -/
theorem condensation_ofGraph (graph : Graph RelationId) : (ofGraph graph).condensation =
    Graph.ofInsertions (((List.range (ofGraph graph).size).map ComponentId.mk).map .vertex ++
      graph.edges.filterMap (condensed? (Decomposition.groups graph))) := by
  have size : (ofGraph graph).size = (Decomposition.groups graph).length := by
    simp only [Decomposition.size, ofGraph, List.size_toArray, List.length_map]
  rw [size, Graph.ofInsertions, List.foldl_append, List.map_map]
  exact foldl_condense _ _ _

theorem condensation_vertices_ofGraph (graph : Graph RelationId) :
    (ofGraph graph).condensation.vertices.toList =
      (List.range (ofGraph graph).size).map ComponentId.mk := by
  have distinct : ((List.range (ofGraph graph).size).map ComponentId.mk).Nodup :=
    List.nodup_range.map fun _ _ same => congrArg ComponentId.index same
  have numbered : (((List.range (ofGraph graph).size).map ComponentId.mk).map
      Insertion.vertex).flatMap Insertion.labels =
        (List.range (ofGraph graph).size).map ComponentId.mk := by
    rw [List.flatMap_map]
    exact List.flatMap_singleton' _
  rw [condensation_ofGraph, Graph.vertices_ofInsertions, List.flatMap_append, numbered]
  refine eraseDups_append_of_mem distinct fun label mentioned => ?_
  -- Both ends of an edge are owners, and those are numbered already.
  obtain ⟨insertion, inserted, inside⟩ := List.mem_flatMap.mp mentioned
  obtain ⟨edge, -, condensed⟩ := List.mem_filterMap.mp inserted
  obtain ⟨source, target, atSource, atTarget, -, rfl⟩ := condensed?_eq_some_iff.mp condensed
  rw [← owner?_ofGraph] at atSource atTarget
  rw [Insertion.labels, List.mem_pair] at inside
  rcases inside with rfl | rfl
  · exact List.mem_map.mpr ⟨_, List.mem_range.mpr (owner?_lt atSource), rfl⟩
  · exact List.mem_map.mpr ⟨_, List.mem_range.mpr (owner?_lt atTarget), rfl⟩

theorem condensation_edge_ofGraph : (ofGraph graph).condensation.HasEdge i j ↔
    i ≠ j ∧ ∃ u v, graph.HasEdge u v ∧ (ofGraph graph).owner? u = some i ∧
      (ofGraph graph).owner? v = some j := by
  simp only [condensation_ofGraph, Graph.hasEdge_ofInsertions, owner?_ofGraph, List.mem_append,
    List.mem_map, reduceCtorEq, and_false, exists_false, false_or, List.mem_filterMap,
    condensed?_eq_some_iff, Insertion.edge.injEq, Edge.mk.injEq]
  constructor
  · rintro ⟨sign, edge, member, source, target, atSource, atTarget, different, rfl, rfl, rfl⟩
    exact ⟨different, edge.source, edge.target, ⟨edge.polarity, member⟩, atSource, atTarget⟩
  · rintro ⟨different, u, v, ⟨sign, member⟩, atSource, atTarget⟩
    exact ⟨sign, _, member, i, j, atSource, atTarget, different, rfl, rfl, rfl⟩

/-- An edge of the condensation is negative when it stands for a negative edge. -/
theorem condensation_negative_ofGraph :
    (⟨i, j, .negative⟩ : Edge ComponentId) ∈ (ofGraph graph).condensation.edges ↔
      i ≠ j ∧ ∃ u v, (⟨u, v, .negative⟩ : Edge RelationId) ∈ graph.edges ∧
        (ofGraph graph).owner? u = some i ∧ (ofGraph graph).owner? v = some j := by
  simp only [condensation_ofGraph, Graph.negative_ofInsertions, owner?_ofGraph, List.mem_append,
    List.mem_map, reduceCtorEq, and_false, exists_false, false_or, List.mem_filterMap,
    condensed?_eq_some_iff, Insertion.edge.injEq, Edge.mk.injEq]
  constructor
  · intro inserted
    obtain ⟨⟨u, v, _⟩, member, _, _, atSource, atTarget, different, rfl, rfl, rfl⟩ := inserted
    exact ⟨different, u, v, member, atSource, atTarget⟩
  · intro stands
    obtain ⟨different, u, v, member, atSource, atTarget⟩ := stands
    exact ⟨_, member, i, j, atSource, atTarget, different, rfl, rfl, rfl⟩

/-! ## The components -/

theorem recursive_componentOf (wellFormed : graph.WellFormed) (group : List RelationId) :
    (componentOf graph group).recursive = true ↔
      1 < (componentOf graph group).members.size ∨
        ∃ v ∈ (componentOf graph group).members, graph.HasEdge v v := by
  simp only [componentOf, Bool.or_eq_true, decide_eq_true_eq, List.any_eq_true, List.size_toArray,
    List.mem_toArray, Graph.hasSelfLoop, Option.isSome_iff_exists, wellFormed.hasEdge_iff]

theorem internalNegative?_eq_some_iff {group : List RelationId} {edge : Edge RelationId} :
    internalNegative? group edge = some (u, v) ↔
      u ∈ group ∧ v ∈ group ∧ edge = ⟨u, v, .negative⟩ := by
  obtain ⟨source, target, sign⟩ := edge
  cases sign <;> simp [internalNegative?, Polarity.isNegative]
  grind

theorem negative_componentOf {group : List RelationId} :
    (u, v) ∈ (componentOf graph group).negativeEdges ↔
      u ∈ (componentOf graph group).members ∧ v ∈ (componentOf graph group).members ∧
        (⟨u, v, .negative⟩ : Edge RelationId) ∈ graph.edges := by
  simp only [componentOf, List.mem_filterMap, internalNegative?_eq_some_iff, List.mem_toArray]
  constructor
  · rintro ⟨edge, member, source, target, rfl⟩
    exact ⟨source, target, member⟩
  · rintro ⟨source, target, member⟩
    exact ⟨_, member, source, target, rfl⟩

/-- A component is completed after all others that it reaches, so its number is not less than
theirs. -/
theorem index_le_of_reaches (wellFormed : graph.WellFormed)
    (foundA : (ofGraph graph).component? i = some a) (foundB : (ofGraph graph).component? j = some b)
    (inA : u ∈ a.members) (inB : v ∈ b.members) (reach : graph.Reaches u v) :
    j.index ≤ i.index := by
  obtain ⟨first, atFirst, rfl⟩ := component?_ofGraph.mp foundA
  obtain ⟨second, atSecond, rfl⟩ := component?_ofGraph.mp foundB
  obtain ⟨p, pInside, pPlaced⟩ := mem_group_iff.mp (List.mem_toArray.mp inA)
  obtain ⟨q, qInside, qPlaced⟩ := mem_group_iff.mp (List.mem_toArray.mp inB)
  rw [wellFormed.reaches_iff_reachesAt pPlaced qPlaced] at reach
  obtain ⟨firstBound, rfl⟩ := List.getElem?_eq_some_iff.mp atFirst
  obtain ⟨secondBound, rfl⟩ := List.getElem?_eq_some_iff.mp atSecond
  by_contra later
  exact List.pairwise_iff_getElem.mp wellFormed.components_ordered _ _ firstBound secondBound
    (Nat.lt_of_not_le later) p pInside q qInside reach

/-- The decomposition of a graph represents it. -/
theorem represents_ofGraph (wellFormed : graph.WellFormed) :
    (ofGraph graph).Represents graph where
  covers := by
    intro v vertex
    obtain ⟨position, placed⟩ := Array.mem_iff_getElem?.mp vertex
    obtain ⟨positions, member, inside⟩ :=
      wellFormed.exists_component (Array.getElem?_eq_some_iff.mp placed).1
    obtain ⟨index, found⟩ := List.mem_iff_getElem?.mp member
    refine ⟨⟨index⟩, _, component?_ofGraph.mpr ⟨positions, found, rfl⟩, ?_⟩
    exact List.mem_toArray.mpr (mem_group_iff.mpr ⟨position, inside, placed⟩)
  member_vertex := by
    intro id component v found member
    obtain ⟨positions, -, rfl⟩ := component?_ofGraph.mp found
    obtain ⟨position, -, placed⟩ := mem_group_iff.mp (List.mem_toArray.mp member)
    exact Array.mem_of_getElem? placed
  same_iff := by
    intro i j a b u v foundA foundB inA inB
    constructor
    · rintro rfl
      obtain rfl := Option.some_inj.mp (foundA.symm.trans foundB)
      obtain ⟨positions, place, rfl⟩ := component?_ofGraph.mp foundA
      obtain ⟨p, pInside, pPlaced⟩ := mem_group_iff.mp (List.mem_toArray.mp inA)
      obtain ⟨q, qInside, qPlaced⟩ := mem_group_iff.mp (List.mem_toArray.mp inB)
      rw [wellFormed.reaches_iff_reachesAt pPlaced qPlaced,
        wellFormed.reaches_iff_reachesAt qPlaced pPlaced]
      exact (wellFormed.mem_component_iff (List.mem_of_getElem? place) pInside).mp qInside
    · rintro ⟨forth, back⟩
      -- Of two different components the earlier one does not reach the later one.
      exact congrArg ComponentId.mk
        (Nat.le_antisymm (index_le_of_reaches wellFormed foundB foundA inB inA back)
          (index_le_of_reaches wellFormed foundA foundB inA inB forth))
  nonempty := by
    intro id component found
    obtain ⟨positions, place, rfl⟩ := component?_ofGraph.mp found
    have member := List.mem_of_getElem? place
    obtain ⟨position, inside⟩ :=
      List.exists_mem_of_ne_nil _ (wellFormed.component_ne_nil member)
    have bound := wellFormed.component_lt member inside
    have labelled : graph.vertices[position] ∈ (componentOf graph (group graph positions)).members :=
      List.mem_toArray.mpr
        (mem_group_iff.mpr ⟨position, inside, Array.getElem?_eq_getElem bound⟩)
    exact Array.ne_empty_of_mem labelled
  ascending := by
    intro id component found
    obtain ⟨positions, place, rfl⟩ := component?_ofGraph.mp found
    have distinct := wellFormed.component_nodup (List.mem_of_getElem? place)
    exact RelationId.sort_ascending (wellFormed.nodup_filterMap_vertices distinct)
  recursive_iff := by
    intro id component found
    obtain ⟨positions, -, rfl⟩ := component?_ofGraph.mp found
    exact recursive_componentOf wellFormed _
  negative_iff := by
    intro id component u v found
    obtain ⟨positions, -, rfl⟩ := component?_ofGraph.mp found
    exact negative_componentOf
  condensation_wellFormed := condensation_ofGraph graph ▸ Graph.wellFormed_ofInsertions _
  condensation_vertices := condensation_vertices_ofGraph graph
  condensation_edge_iff := condensation_edge_ofGraph

/-- Whatever has been inserted, the components are the classes of vertices that reach each other.
Each vertex is in exactly one component, its owner, and relations that are no vertices have none;
members stand in ascending order, the least one first, and are found by halving. -/
theorem stronglyConnected_ofInsertions (log : List (Insertion RelationId)) :
    let graph := Graph.ofInsertions log
    let decomposition := ofGraph graph
    (∀ v, v ∈ graph.vertices ↔ ∃ insertion ∈ log, insertion.Mentions v) ∧
    (∀ u v, graph.HasEdge u v ↔ ∃ sign, .edge ⟨u, v, sign⟩ ∈ log) ∧
    (∀ v ∈ graph.vertices, ∃! id,
      ∃ component, decomposition.component? id = some component ∧ v ∈ component.members) ∧
    (∀ u ∈ graph.vertices, ∀ v ∈ graph.vertices,
      (∃ id component, decomposition.component? id = some component ∧
        u ∈ component.members ∧ v ∈ component.members) ↔
          graph.Reaches u v ∧ graph.Reaches v u) ∧
    (∀ v id, decomposition.owner? v = some id ↔
      ∃ component, decomposition.component? id = some component ∧ v ∈ component.members) ∧
    (∀ v, decomposition.owner? v = none ↔ v ∉ graph.vertices) ∧
    (∀ id component, decomposition.component? id = some component →
      component.members ≠ #[] ∧ Ascending component.members.toList ∧
      component.firstDeclared ∈ component.members ∧
      (∀ v ∈ component.members, component.firstDeclared ≤ v) ∧
      ∀ v, component.contains v = true ↔ decomposition.owner? v = some id) := by
  intro graph decomposition
  have represents : decomposition.Represents graph :=
    represents_ofGraph (Graph.wellFormed_ofInsertions log)
  refine ⟨fun v => Graph.mem_vertices_ofInsertions, fun u v => Graph.hasEdge_ofInsertions,
    ?_, fun u vertexU v vertexV => represents.together_iff vertexU vertexV,
    fun v id => represents.owner?_eq_some_iff, ?_, ?_⟩
  · intro v vertex
    obtain ⟨id, component, found, member⟩ := represents.covers vertex
    refine ⟨id, ⟨component, found, member⟩, ?_⟩
    rintro other ⟨_, foundOther, memberOther⟩
    exact represents.unique foundOther found memberOther member
  · intro v
    rw [← represents.owner?_isSome_iff, ← Option.isSome_iff_exists, Option.not_isSome_iff_eq_none]
  · intro id component found
    have ascending := represents.ascending found
    have first := Component.firstDeclared_mem (represents.nonempty found)
    exact ⟨represents.nonempty found, ascending, first,
      fun v member => Component.firstDeclared_le ascending member,
      fun v => represents.contains_iff found⟩

/-- Two relations that depend on each other, and a third one that depends on them. -/
def cycleWithTail : List (Insertion RelationId) :=
  [.edge ⟨⟨2⟩, ⟨0⟩, .positive⟩, .edge ⟨⟨0⟩, ⟨2⟩, .negative⟩, .edge ⟨⟨2⟩, ⟨1⟩, .positive⟩]

theorem cycleWithTail_component :
    ∃ id component, (ofGraph (Graph.ofInsertions cycleWithTail)).component? id = some component ∧
      ⟨0⟩ ∈ component.members ∧ ⟨2⟩ ∈ component.members := by
  obtain ⟨-, edges, -, component_iff, -⟩ := stronglyConnected_ofInsertions cycleWithTail
  have forth := (edges ⟨2⟩ ⟨0⟩).mpr ⟨.positive, by decide⟩
  have back := (edges ⟨0⟩ ⟨2⟩).mpr ⟨.negative, by decide⟩
  exact (component_iff ⟨0⟩ (Graph.mem_vertices_of_hasEdge back).1 ⟨2⟩
    (Graph.mem_vertices_of_hasEdge back).2).mpr ⟨.single back, .single forth⟩

end Decomposition

end DatalogStrata
