import DatalogStrata.Component.Assembly
import DatalogStrata.Proofs.Component.Condensation
import DatalogStrata.Proofs.Component.Tally
import DatalogStrata.Proofs.Graph.Checked

/-!
# Assembling a decomposition without failing

The components that the search finds name nothing that is missing, and of two components that an
edge connects the one it leads to was completed earlier. So nothing fails where a decomposition is
assembled from them, and what is assembled is the decomposition of the graph.

## Main results

* `Decomposition.lookup_owners` — the table has the owner of each relation
* `Decomposition.assemble?_eq` — the decomposition is assembled without failing
* `Decomposition.ofInsertions_never_fails` — for every graph that is built by insertions the search
  comes to its end, and nothing fails in it or in the assembly
-/

namespace DatalogStrata

/-- In a table with no more than one value under each key, a look-up finds what is entered. -/
theorem lookup_eq_some_iff_mem {α β : Type} [DecidableEq α] {table : List (α × β)} {key : α}
    {value : β} (single : ∀ other, (key, value) ∈ table → (key, other) ∈ table → other = value) :
    table.lookup key = some value ↔ (key, value) ∈ table := by
  have listed {other : β} (found : table.lookup key = some other) : (key, other) ∈ table := by
    obtain ⟨before, after, split, -⟩ := List.lookup_eq_some_iff.mp found
    simp [split]
  constructor
  · exact listed
  · intro member
    cases found : table.lookup key with
    | none => simpa using List.lookup_eq_none_iff.mp found _ member
    | some other => rw [single other member (listed found)]

namespace Decomposition

/-- The component of a group with the negative edges among some edges. -/
def componentAfter (graph : Graph RelationId) (edges : List (Edge RelationId))
    (group : List RelationId) : Component :=
  { componentOf graph group with negativeEdges := edges.filterMap (internalNegative? group) }

/-- The decomposition after some edges have been added. -/
def after (graph : Graph RelationId) (edges : List (Edge RelationId)) : Decomposition where
  components := ((groups graph).map (componentAfter graph edges)).toArray
  condensation :=
    edges.foldl (condense (groups graph)) (Graph.ofInsertions (numbering (groups graph)))

/-! ## Groups and their owners -/

section Groups

variable {graph : Graph RelationId} (wellFormed : graph.WellFormed) {id : ComponentId}
  {v : RelationId} {positions : List Nat} {group : List RelationId}
include wellFormed

theorem group?_eq (member : positions ∈ graph.components) :
    group? graph positions = some (Decomposition.group graph positions) := by
  rw [group?, mapM_eq_some_filterMap]
  · rfl
  · intro position inside
    exact ⟨_, Array.getElem?_eq_getElem (wellFormed.component_lt member inside)⟩

/-- A group has a relation for each position, so it is not empty. -/
theorem group_ne_nil (member : positions ∈ graph.components) :
    Decomposition.group graph positions ≠ [] := by
  obtain ⟨position, rest, rfl⟩ :=
    List.exists_cons_of_ne_nil (wellFormed.component_ne_nil member)
  have bound := wellFormed.component_lt member List.mem_cons_self
  exact List.ne_nil_of_mem
    (mem_group_iff.mpr ⟨position, List.mem_cons_self, Array.getElem?_eq_getElem bound⟩)

theorem mapM_group? :
    graph.components.mapM (group? graph) = some (Decomposition.groups graph) := by
  rw [groups_eq, mapM_eq_some_iff, List.forall₂_map_right_iff, List.forall₂_same]
  exact fun positions member => group?_eq wellFormed member

/-- The owner of a relation is the number of the group that it is in. -/
theorem owner?_eq_some_iff_group : (ofGraph graph).owner? v = some id ↔
    ∃ group, (Decomposition.groups graph)[id.index]? = some group ∧ v ∈ group := by
  rw [(represents_ofGraph wellFormed).owner?_eq_some_iff]
  simp only [component?_ofGraph, groups_eq, List.getElem?_map, Option.map_eq_some_iff]
  constructor
  · rintro ⟨_, ⟨positions, found, rfl⟩, member⟩
    exact ⟨_, ⟨positions, found, rfl⟩, List.mem_toArray.mp member⟩
  · rintro ⟨_, ⟨positions, found, rfl⟩, member⟩
    exact ⟨_, ⟨positions, found, rfl⟩, List.mem_toArray.mpr member⟩

omit wellFormed in
theorem mem_owners_iff {groups : List (List RelationId)} :
    (v, id) ∈ owners groups ↔ ∃ group, groups[id.index]? = some group ∧ v ∈ group := by
  simp only [owners, List.mem_reverse, List.mem_flatMap, Prod.exists, List.mem_map,
    List.mk_mem_zipIdx_iff_getElem?, Prod.mk.injEq]
  constructor
  · rintro ⟨group, index, found, _, member, rfl, rfl⟩
    exact ⟨group, found, member⟩
  · rintro ⟨group, found, member⟩
    exact ⟨group, id.index, found, v, member, rfl, rfl⟩

/-- The table has the owner of each relation. -/
theorem lookup_owners (v : RelationId) :
    (owners (Decomposition.groups graph)).lookup v = (ofGraph graph).owner? v := by
  have entered (id : ComponentId) : (v, id) ∈ owners (Decomposition.groups graph) ↔
      (ofGraph graph).owner? v = some id :=
    mem_owners_iff.trans (owner?_eq_some_iff_group wellFormed).symm
  refine Option.ext fun id => ?_
  refine (lookup_eq_some_iff_mem fun other member memberOther => ?_).trans (entered id)
  rw [entered] at member memberOther
  exact Option.some_inj.mp (memberOther.symm.trans member)

/-- A group that is not empty tells whether it is recursive. -/
theorem recursive?_eq (nonempty : group ≠ []) :
    recursive? graph group = some (componentOf graph group).recursive := by
  obtain ⟨first, rest, rfl⟩ := List.exists_cons_of_ne_nil nonempty
  rw [recursive?, componentOf]
  by_cases several : 1 < (first :: rest).length
  · rw [if_pos several, decide_eq_true several, Bool.true_or]
  · -- The first relation is the only one.
    obtain rfl : rest = [] := List.eq_nil_of_length_eq_zero (by simpa using several)
    rw [if_neg several, decide_eq_false several]
    simp [wellFormed.selfLoop?_eq]

theorem mapM_emptyComponent? :
    (Decomposition.groups graph).mapM (emptyComponent? graph) =
      some ((Decomposition.groups graph).map (componentAfter graph [])) := by
  rw [mapM_eq_some_iff, List.forall₂_map_right_iff, List.forall₂_same]
  intro group member
  rw [groups_eq] at member
  obtain ⟨positions, listed, rfl⟩ := List.mem_map.mp member
  rw [emptyComponent?, recursive?_eq wellFormed (group_ne_nil wellFormed listed)]
  rfl

end Groups

/-! ## Adding the edges -/

section Edges

variable {graph : Graph RelationId} (wellFormed : graph.WellFormed)
  {edges : List (Edge RelationId)} {edge : Edge RelationId} {source target : ComponentId}

theorem condensation_after_wellFormed (graph : Graph RelationId) (edges : List (Edge RelationId)) :
    (after graph edges).condensation.WellFormed := by
  have log : (after graph edges).condensation = Graph.ofInsertions
      (numbering (groups graph) ++ edges.filterMap (condensed? (groups graph))) := by
    rw [after, foldl_condense, Graph.ofInsertions, Graph.ofInsertions, List.foldl_append]
  rw [log]
  exact Graph.wellFormed_ofInsertions _

include wellFormed

section Owned

variable (ownedSource : (ofGraph graph).owner? edge.source = some source)
  (ownedTarget : (ofGraph graph).owner? edge.target = some target)
include ownedSource ownedTarget

/-- An edge is negative inside a group when the group owns both of its ends. -/
theorem internalNegative?_eq {group : List RelationId} {index : Nat}
    (placed : (groups graph)[index]? = some group) : internalNegative? group edge =
      if edge.polarity.isNegative ∧ source.index = index ∧ target.index = index then
        some (edge.source, edge.target)
      else none := by
  have member {v : RelationId} {id : ComponentId} (owned : (ofGraph graph).owner? v = some id) :
      v ∈ group ↔ id.index = index := by
    constructor
    · intro inside
      have own : (ofGraph graph).owner? v = some ⟨index⟩ :=
        (owner?_eq_some_iff_group wellFormed).mpr ⟨group, placed, inside⟩
      exact congrArg ComponentId.index (Option.some_inj.mp (owned.symm.trans own))
    · rintro rfl
      obtain ⟨other, placedOther, inside⟩ := (owner?_eq_some_iff_group wellFormed).mp owned
      exact Option.some_inj.mp (placed.symm.trans placedOther) ▸ inside
  simp only [internalNegative?, member ownedSource, member ownedTarget]

omit wellFormed in
theorem condensation_after_concat (edges : List (Edge RelationId)) :
    (after graph (edges ++ [edge])).condensation =
      if source = target then (after graph edges).condensation
      else (after graph edges).condensation.insertEdge ⟨source, target, edge.polarity⟩ := by
  rw [owner?_ofGraph] at ownedSource ownedTarget
  simp only [after, List.foldl_append, List.foldl_cons, List.foldl_nil]
  rw [condense, ownedSource, ownedTarget]

/-- Only an edge that is negative inside a component changes a component. -/
theorem components_after_concat (edges : List (Edge RelationId)) (index : Nat) :
    (after graph (edges ++ [edge])).components[index]? =
      (after graph edges).components[index]?.map fun component =>
        if edge.polarity.isNegative ∧ source.index = index ∧ target.index = index then
          { component with
            negativeEdges := component.negativeEdges ++ [(edge.source, edge.target)] }
        else component := by
  simp only [after, List.getElem?_toArray, List.getElem?_map]
  cases placed : (groups graph)[index]? with
  | none => rfl
  | some group =>
    have one := internalNegative?_eq wellFormed ownedSource ownedTarget placed
    by_cases inside : edge.polarity.isNegative ∧ source.index = index ∧ target.index = index
    · rw [if_pos inside] at one
      simp [componentAfter, one, inside]
    · rw [if_neg inside] at one
      simp [componentAfter, one, inside]

/-- An edge inside a component is added without failing. -/
theorem addEdge?_inside (same : source = target) :
    addEdge? (owners (groups graph)) (after graph edges) edge =
      some (after graph (edges ++ [edge])) := by
  subst same
  have components := components_after_concat wellFormed ownedSource ownedTarget edges
  have condensation := condensation_after_concat ownedSource ownedTarget edges
  rw [if_pos rfl] at condensation
  rw [addEdge?, lookup_owners wellFormed, lookup_owners wellFormed, ownedSource, ownedTarget,
    Option.bind_eq_bind, Option.bind_some, Option.bind_eq_bind, Option.bind_some, if_pos rfl]
  by_cases negative : edge.polarity.isNegative
  · -- The component of both ends is there, and it is the only one that changes.
    obtain ⟨group, placed, -⟩ := (owner?_eq_some_iff_group wellFormed).mp ownedSource
    have found : (after graph edges).components[source.index]? =
        some (componentAfter graph edges group) := by
      rw [after, List.getElem?_toArray, List.getElem?_map, placed, Option.map_some]
    have grown : (after graph (edges ++ [edge])).components =
        (after graph edges).components.setIfInBounds source.index
          { componentAfter graph edges group with
            negativeEdges := (componentAfter graph edges group).negativeEdges ++
              [(edge.source, edge.target)] } := by
      refine Array.ext_getElem? fun index => ?_
      rw [components, Array.getElem?_setIfInBounds]
      by_cases here : source.index = index
      · subst here
        rw [found, Option.map_some, if_pos ⟨negative, rfl, rfl⟩, if_pos rfl,
          if_pos (Array.getElem?_eq_some_iff.mp found).1]
      · simp [here]
    rw [if_pos negative, found, Option.bind_some]
    exact congrArg some (congrArg₂ Decomposition.mk grown condensation).symm
  · have kept : (after graph (edges ++ [edge])).components = (after graph edges).components := by
      refine Array.ext_getElem? fun index => ?_
      simp [components, negative]
    rw [if_neg negative]
    exact congrArg some (congrArg₂ Decomposition.mk kept condensation).symm

/-- An edge between two components is added without failing. -/
theorem addEdge?_between (listed : edge ∈ graph.edges) (different : source ≠ target) :
    addEdge? (owners (groups graph)) (after graph edges) edge =
      some (after graph (edges ++ [edge])) := by
  have components := components_after_concat wellFormed ownedSource ownedTarget edges
  have condensation := condensation_after_concat ownedSource ownedTarget edges
  rw [if_neg different] at condensation
  have kept : (after graph (edges ++ [edge])).components = (after graph edges).components := by
    refine Array.ext_getElem? fun index => ?_
    have apart : ¬ (edge.polarity.isNegative ∧ source.index = index ∧ target.index = index) := by
      rintro ⟨-, rfl, same⟩
      exact different (congrArg ComponentId.mk same).symm
    simp [components, apart]
  have earlier : target.index < source.index :=
    (eq_or_index_lt_of_hasEdge wellFormed ⟨edge.polarity, listed⟩ ownedSource
      ownedTarget).resolve_left different
  have inserted := (condensation_after_wellFormed graph edges).insertEdge?_eq
    ⟨source, target, edge.polarity⟩
  rw [addEdge?, lookup_owners wellFormed, lookup_owners wellFormed, ownedSource, ownedTarget,
    Option.bind_eq_bind, Option.bind_some, Option.bind_eq_bind, Option.bind_some, if_neg different,
    guard_bind earlier, inserted]
  exact congrArg some (congrArg₂ Decomposition.mk kept condensation).symm

end Owned

/-- An edge of the graph is added without failing. -/
theorem addEdge?_eq (listed : edge ∈ graph.edges) :
    addEdge? (owners (groups graph)) (after graph edges) edge =
      some (after graph (edges ++ [edge])) := by
  obtain ⟨source, target, ownedSource, ownedTarget⟩ :=
    (represents_ofGraph wellFormed).exists_owners ⟨edge.polarity, listed⟩
  by_cases same : source = target
  · exact addEdge?_inside wellFormed ownedSource ownedTarget same
  · exact addEdge?_between wellFormed ownedSource ownedTarget listed same

/-- The decomposition of a graph is assembled without failing. -/
theorem assemble?_eq : assemble? graph graph.components = some (ofGraph graph) := by
  have added : ∀ rest edges, edges ++ rest = graph.edges →
      rest.foldlM (addEdge? (owners (groups graph))) (after graph edges) =
        some (after graph graph.edges) := by
    intro rest
    induction rest with
    | nil =>
      intro edges all
      rw [← all, List.append_nil]
      rfl
    | cons edge rest ih =>
      intro edges split
      have listed : edge ∈ graph.edges := split ▸ List.mem_append_right edges List.mem_cons_self
      rw [List.foldlM_cons, addEdge?_eq wellFormed listed]
      exact ih _ (by rw [← split, List.append_assoc, List.singleton_append])
  rw [assemble?, mapM_group? wellFormed, Option.bind_eq_bind, Option.bind_some,
    mapM_emptyComponent? wellFormed, Option.bind_eq_bind, Option.bind_some, wellFormed.edges?_eq]
  exact added graph.edges [] rfl

end Edges

/-- Whatever has been inserted, the search comes to its end and nothing fails in it or in what
follows. The search under watch has one end, where the search ends: every vertex has been entered
once, every slot has been taken once, and the loop has turned once for each of them. Each
component has a member, the decomposition is assembled from the components, and both ends of each
edge have an owner in the table. -/
theorem ofInsertions_never_fails (log : List (Insertion RelationId)) :
    let graph := Graph.ofInsertions log
    let begun := Watch.start graph.vertexCount
    ∃ last, (∀ other, Watch.Visits graph graph.vertices.toList begun other ↔ other = last) ∧
      last.search = graph.searched ∧
      last.entries.Perm (List.range graph.vertexCount) ∧
      last.taken.Perm graph.everySlot ∧
      last.turns = last.taken.length + last.entries.length ∧
      (∀ component ∈ last.search.components, component ≠ []) ∧
      assemble? graph last.search.components.toList = some (ofGraph graph) ∧
      ∀ edge ∈ graph.edges, ∃ source target,
        (owners (groups graph)).lookup edge.source = some source ∧
        (owners (groups graph)).lookup edge.target = some target := by
  intro graph begun
  have wellFormed : graph.WellFormed := Graph.wellFormed_ofInsertions log
  obtain ⟨last, visits, ended, entries, taken, turns⟩ := Watch.exists_visits_searched wellFormed
  refine ⟨last, fun other => ⟨fun others => others.unique visits, ?_⟩, ended, entries, taken, turns,
    ?_, ?_, ?_⟩
  · rintro rfl
    exact visits
  · rw [ended]
    exact fun component => wellFormed.sound_searched.component_nonempty
  · rw [ended]
    exact assemble?_eq wellFormed
  · intro edge listed
    rw [lookup_owners wellFormed, lookup_owners wellFormed]
    exact (represents_ofGraph wellFormed).exists_owners ⟨edge.polarity, listed⟩

end Decomposition

end DatalogStrata
