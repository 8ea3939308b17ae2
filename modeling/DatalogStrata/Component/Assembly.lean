import DatalogStrata.Component.Basic
import DatalogStrata.Graph.Checked

/-!
# Assembling a decomposition

From the components that the search finds the decomposition is assembled in several passes: their
positions are told by labels, the owner of each relation is entered in a table, and then the edges
of the graph are run through, each of which is negative inside a component, leads from one component
to another or adds nothing. Every place that is read on the way is checked, and so is the order of
the two components that an edge connects.

## Main definitions

* `Decomposition.owners` — the table of owners
* `Decomposition.addEdge?` — what an edge adds
* `Decomposition.assemble?` — the decomposition of a graph, assembled from found components
-/

namespace DatalogStrata

namespace Decomposition

/-- The relations at some positions, all of which must be vertices, in declaration order. -/
def group? (graph : Graph RelationId) (positions : List Nat) : Option (List RelationId) :=
  (positions.mapM (graph.vertices[·]?)).map RelationId.sort

/-- Whether the relations of a group depend on themselves. The first one is looked at when there are
no others, and it must be there. -/
def recursive? (graph : Graph RelationId) (group : List RelationId) : Option Bool :=
  if 1 < group.length then some true else do graph.selfLoop? (← group.head?)

/-- The component of a group before any edge has been added. -/
def emptyComponent? (graph : Graph RelationId) (group : List RelationId) : Option Component := do
  return ⟨group.toArray, ← recursive? graph group, []⟩

/-- The table of owners, filled group by group. An entry stands in front of the earlier ones. -/
def owners (groups : List (List RelationId)) : List (RelationId × ComponentId) :=
  (groups.zipIdx.flatMap fun (group, index) =>
    group.map fun relation => (relation, ComponentId.mk index)).reverse

/-- Add what an edge contributes. Both of its ends must have an owner, a component that it is
inside of must be there, and one that it leads to must have been completed earlier. -/
def addEdge? (table : List (RelationId × ComponentId)) (decomposition : Decomposition)
    (edge : Edge RelationId) : Option Decomposition := do
  let source ← table.lookup edge.source
  let target ← table.lookup edge.target
  if source = target then
    if edge.polarity.isNegative then
      let component ← decomposition.components[source.index]?
      let longer := component.negativeEdges ++ [(edge.source, edge.target)]
      return { decomposition with
        components := decomposition.components.setIfInBounds source.index
          { component with negativeEdges := longer } }
    else
      return decomposition
  else
    guard (target.index < source.index)
    let condensation ← decomposition.condensation.insertEdge? ⟨source, target, edge.polarity⟩
    return { decomposition with condensation }

/-- The numbers of groups, as a log. -/
def numbering (groups : List (List RelationId)) : List (Insertion ComponentId) :=
  (List.range groups.length).map fun index => .vertex ⟨index⟩

/-- The decomposition that some components of positions form. -/
def assemble? (graph : Graph RelationId) (found : List (List Nat)) : Option Decomposition := do
  let groups ← found.mapM (group? graph)
  let components ← groups.mapM (emptyComponent? graph)
  let edges ← graph.edges?
  edges.foldlM (addEdge? (owners groups))
    ⟨components.toArray, Graph.ofInsertions (numbering groups)⟩

end Decomposition

end DatalogStrata
