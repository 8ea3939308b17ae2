import DatalogStrata.Component.Search
import DatalogStrata.Declaration

/-!
# Strongly connected components

Relations that depend on each other in a cycle form one component. The components of a precedence
graph, taken as vertices, form a graph without cycles, the condensation.

## Main definitions

* `ComponentId`, `Component` — a component and its number
* `Decomposition` — the components of a graph and its condensation
* `Decomposition.ofGraph` — the decomposition of a graph
* `Decomposition.owner?` — the component of a relation
-/

namespace DatalogStrata

/-- A component by its place in the order of completion. -/
structure ComponentId where
  index : Nat
deriving DecidableEq, Repr

/-- The written form of a component's number, `C0`. -/
def ComponentId.text (id : ComponentId) : String :=
  "C" ++ toString id.index

/-- A strongly connected component. -/
structure Component where
  /-- The relations in it, in declaration order. -/
  members : Array RelationId
  /-- Whether its relations depend on themselves: there are several, or one with a self-loop. -/
  recursive : Bool
  /-- The negative edges with both ends inside, as pairs of source and target, in graph order. -/
  negativeEdges : List (RelationId × RelationId)
deriving DecidableEq, Repr

/-- Whether a value stands between two bounds of an ascending array, found by halving. -/
def halvingSearch (values : Array RelationId) (wanted : RelationId) (low high : Nat) : Bool :=
  if low < high then
    let middle := (low + high) / 2
    match values[middle]? with
    | some value =>
      if value = wanted then true
      else if value < wanted then halvingSearch values wanted (middle + 1) high
      else halvingSearch values wanted low middle
    | none => false
  else
    false
termination_by high - low

namespace Component

/-- Whether a relation is a member. -/
def contains (component : Component) (relation : RelationId) : Bool :=
  halvingSearch component.members relation 0 component.members.size

/-- The member that was declared first. -/
def firstDeclared (component : Component) : RelationId :=
  component.members[0]?.getD ⟨0⟩

end Component

/-- The components of a graph and the graph that they form. -/
structure Decomposition where
  /-- The components in the order of completion. -/
  components : Array Component
  condensation : Graph ComponentId
deriving DecidableEq, Repr

namespace Decomposition

/-- The number of the group that a relation is in. -/
def groupOf? (groups : List (List RelationId)) (relation : RelationId) : Option ComponentId :=
  (groups.findIdx? fun group => relation ∈ group).map ComponentId.mk

/-- A negative edge with both ends in a group, as a pair. -/
def internalNegative? (group : List RelationId) (edge : Edge RelationId) :
    Option (RelationId × RelationId) :=
  if edge.polarity.isNegative ∧ edge.source ∈ group ∧ edge.target ∈ group then
    some (edge.source, edge.target)
  else
    none

/-- The component that a group of relations forms in a graph. -/
def componentOf (graph : Graph RelationId) (group : List RelationId) : Component where
  members := group.toArray
  recursive := 1 < group.length || group.any graph.hasSelfLoop
  negativeEdges := graph.edges.filterMap (internalNegative? group)

/-- Add to the condensation what an edge of the graph contributes: an edge between two groups, or
nothing when both ends are in one group. -/
def condense (groups : List (List RelationId)) (condensation : Graph ComponentId)
    (edge : Edge RelationId) : Graph ComponentId :=
  match groupOf? groups edge.source, groupOf? groups edge.target with
  | some source, some target =>
    -- Several edges between two groups become one, negative if one of them is.
    if source = target then condensation
    else condensation.insertEdge ⟨source, target, edge.polarity⟩
  | _, _ => condensation

/-- The groups of relations that the search finds, each in declaration order. -/
def groups (graph : Graph RelationId) : List (List RelationId) :=
  graph.components.map fun positions =>
    RelationId.sort (positions.filterMap (graph.vertices[·]?))

/-- The components of a graph. -/
def ofGraph (graph : Graph RelationId) : Decomposition :=
  let groups := groups graph
  let vertices := (List.range groups.length).map fun index =>
    Insertion.vertex (ComponentId.mk index)
  { components := (groups.map (componentOf graph)).toArray
    condensation := graph.edges.foldl (condense groups) (Graph.ofInsertions vertices) }

/-- The component with a given number. -/
def component? (decomposition : Decomposition) (id : ComponentId) : Option Component :=
  decomposition.components[id.index]?

/-- The number of the component that a relation is in; none for a relation that is no vertex. -/
def owner? (decomposition : Decomposition) (relation : RelationId) : Option ComponentId :=
  (decomposition.components.findIdx? fun component => relation ∈ component.members).map
    ComponentId.mk

/-- The number of components. -/
def size (decomposition : Decomposition) : Nat :=
  decomposition.components.size

end Decomposition

end DatalogStrata
