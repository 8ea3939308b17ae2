import DatalogStrata.Proofs.Component.Members
import DatalogStrata.Proofs.Graph.Reachability
import Mathlib.Order.WellFoundedSet

/-!
# What a decomposition stands for

A decomposition represents a graph when its components are the classes of vertices that reach each
other, under whatever numbering, and its condensation has an edge between two components exactly
when the graph has one between their members. Nothing else about how it was found matters: that
the condensation has no cycles, and that components are told apart by their first member, follows
from this alone.

## Main definitions

* `Decomposition.Represents` — the components of a graph and the graph that they form

## Main results

* `Decomposition.Represents.owner?_eq_some_iff` — the owner of a relation is the component it is in
* `Decomposition.Represents.reaches_of_condensation` — paths between components are paths between
  their members
* `Decomposition.Represents.acyclic` — the condensation has no cycles
* `Decomposition.Represents.condensation_induction` — induction from predecessors to a component
* `Decomposition.Represents.firstDeclared_inj` — the first member tells a component
-/

namespace DatalogStrata

namespace Decomposition

/-- The components are the classes of vertices that reach each other, and the condensation is the
graph that they form. The numbering of the components is left open. -/
structure Represents (decomposition : Decomposition) (graph : Graph RelationId) : Prop where
  covers : ∀ {v}, v ∈ graph.vertices →
    ∃ id component, decomposition.component? id = some component ∧ v ∈ component.members
  member_vertex : ∀ {id component v}, decomposition.component? id = some component →
    v ∈ component.members → v ∈ graph.vertices
  same_iff : ∀ {i j a b u v}, decomposition.component? i = some a →
    decomposition.component? j = some b → u ∈ a.members → v ∈ b.members →
      (i = j ↔ graph.Reaches u v ∧ graph.Reaches v u)
  nonempty : ∀ {id component}, decomposition.component? id = some component →
    component.members ≠ #[]
  ascending : ∀ {id component}, decomposition.component? id = some component →
    Ascending component.members.toList
  recursive_iff : ∀ {id component}, decomposition.component? id = some component →
    (component.recursive = true ↔
      1 < component.members.size ∨ ∃ v ∈ component.members, graph.HasEdge v v)
  negative_iff : ∀ {id component u v}, decomposition.component? id = some component →
    ((u, v) ∈ component.negativeEdges ↔ u ∈ component.members ∧ v ∈ component.members ∧
      (⟨u, v, .negative⟩ : Edge RelationId) ∈ graph.edges)
  condensation_wellFormed : decomposition.condensation.WellFormed
  condensation_vertices : decomposition.condensation.vertices.toList =
    (List.range decomposition.size).map ComponentId.mk
  condensation_edge_iff : ∀ {i j}, decomposition.condensation.HasEdge i j ↔
    i ≠ j ∧ ∃ u v, graph.HasEdge u v ∧ decomposition.owner? u = some i ∧
      decomposition.owner? v = some j

variable {decomposition : Decomposition} {graph : Graph RelationId} {i j id : ComponentId}
  {component a b : Component} {u v : RelationId}

theorem component?_eq_some_iff : (∃ component, decomposition.component? id = some component) ↔
    id.index < decomposition.size := by
  rw [component?, ← Option.isSome_iff_exists, isSome_getElem?, size]

/-- The components are those that have a number. -/
theorem mem_components_iff : component ∈ decomposition.components.toList ↔
    ∃ id, decomposition.component? id = some component := by
  rw [Array.mem_toList_iff, Array.mem_iff_getElem?]
  constructor
  · intro placed
    obtain ⟨place, atPlace⟩ := placed
    exact ⟨⟨place⟩, atPlace⟩
  · intro numbered
    obtain ⟨id, found⟩ := numbered
    exact ⟨id.index, found⟩

/-- A relation that has an owner is a member of it. -/
theorem mem_of_owner? (owned : decomposition.owner? v = some id) :
    ∃ component, decomposition.component? id = some component ∧ v ∈ component.members := by
  obtain ⟨place, found, rfl⟩ := Option.map_eq_some_iff.mp owned
  obtain ⟨bound, member, -⟩ := Array.findIdx?_eq_some_iff_getElem.mp found
  exact ⟨_, Array.getElem?_eq_getElem bound, of_decide_eq_true member⟩

theorem owner?_lt (owned : decomposition.owner? v = some id) : id.index < decomposition.size := by
  obtain ⟨component, found, -⟩ := mem_of_owner? owned
  exact component?_eq_some_iff.mp ⟨component, found⟩

theorem owner?_eq_none_iff : decomposition.owner? v = none ↔
    ∀ id component, decomposition.component? id = some component → v ∉ component.members := by
  rw [owner?, Option.map_eq_none_iff, Array.findIdx?_eq_none_iff]
  simp only [decide_eq_false_iff_not]
  constructor
  · intro missing id component found
    exact missing component (Array.mem_of_getElem? found)
  · intro missing component member
    obtain ⟨place, found⟩ := Array.mem_iff_getElem?.mp member
    exact missing ⟨place⟩ component found

namespace Represents

variable (represents : decomposition.Represents graph)
include represents

theorem unique (foundA : decomposition.component? i = some a)
    (foundB : decomposition.component? j = some b) (inA : v ∈ a.members) (inB : v ∈ b.members) :
    i = j :=
  (represents.same_iff foundA foundB inA inB).mpr ⟨.refl, .refl⟩

/-- The owner of a relation is the component that it is in. -/
theorem owner?_eq_some_iff : decomposition.owner? v = some id ↔
    ∃ component, decomposition.component? id = some component ∧ v ∈ component.members := by
  constructor
  · exact mem_of_owner?
  · rintro ⟨component, found, member⟩
    cases owned : decomposition.owner? v with
    | none => exact absurd member (owner?_eq_none_iff.mp owned id component found)
    | some other =>
      obtain ⟨_, foundOther, memberOther⟩ := mem_of_owner? owned
      rw [represents.unique foundOther found memberOther member]

theorem owner?_isSome_iff : (∃ id, decomposition.owner? v = some id) ↔ v ∈ graph.vertices := by
  constructor
  · rintro ⟨id, owned⟩
    obtain ⟨component, found, member⟩ := mem_of_owner? owned
    exact represents.member_vertex found member
  · intro vertex
    obtain ⟨id, component, found, member⟩ := represents.covers vertex
    exact ⟨id, represents.owner?_eq_some_iff.mpr ⟨component, found, member⟩⟩

/-- Both ends of an edge have an owner. -/
theorem exists_owners (edge : graph.HasEdge u v) :
    ∃ i j, decomposition.owner? u = some i ∧ decomposition.owner? v = some j := by
  obtain ⟨vertexU, vertexV⟩ := Graph.mem_vertices_of_hasEdge edge
  obtain ⟨i, ownedU⟩ := represents.owner?_isSome_iff.mpr vertexU
  obtain ⟨j, ownedV⟩ := represents.owner?_isSome_iff.mpr vertexV
  exact ⟨i, j, ownedU, ownedV⟩

/-- Two relations have one owner when each reaches the other. -/
theorem owner_eq_iff (ownedU : decomposition.owner? u = some i)
    (ownedV : decomposition.owner? v = some j) :
    i = j ↔ graph.Reaches u v ∧ graph.Reaches v u := by
  obtain ⟨a, foundA, inA⟩ := mem_of_owner? ownedU
  obtain ⟨b, foundB, inB⟩ := mem_of_owner? ownedV
  exact represents.same_iff foundA foundB inA inB

/-- Two vertices are members of one component exactly when each reaches the other. -/
theorem together_iff (vertexU : u ∈ graph.vertices) (vertexV : v ∈ graph.vertices) :
    (∃ id component, decomposition.component? id = some component ∧
      u ∈ component.members ∧ v ∈ component.members) ↔ graph.Reaches u v ∧ graph.Reaches v u := by
  obtain ⟨i, a, foundA, inA⟩ := represents.covers vertexU
  obtain ⟨j, b, foundB, inB⟩ := represents.covers vertexV
  rw [← represents.same_iff foundA foundB inA inB]
  constructor
  · rintro ⟨id, component, found, memberU, memberV⟩
    exact (represents.unique foundA found inA memberU).trans
      (represents.unique found foundB memberV inB)
  · rintro rfl
    obtain rfl := Option.some_inj.mp (foundA.symm.trans foundB)
    exact ⟨i, a, foundA, inA, inB⟩

/-- A component contains the relations that it owns. -/
theorem contains_iff (found : decomposition.component? id = some component) :
    component.contains v = true ↔ decomposition.owner? v = some id := by
  rw [Component.contains_iff (represents.ascending found), represents.owner?_eq_some_iff]
  constructor
  · exact fun member => ⟨component, found, member⟩
  · rintro ⟨other, foundOther, member⟩
    exact Option.some_inj.mp (foundOther.symm.trans found) ▸ member

/-! ## The condensation -/

theorem mem_condensation_iff :
    id ∈ decomposition.condensation.vertices ↔ id.index < decomposition.size := by
  rw [← Array.mem_toList_iff, represents.condensation_vertices, List.mem_map]
  constructor
  · rintro ⟨index, member, rfl⟩
    exact List.mem_range.mp member
  · intro bound
    exact ⟨id.index, List.mem_range.mpr bound, rfl⟩

/-- An edge of the graph stays inside a component or is an edge of the condensation. -/
theorem condensation_of_edge (edge : graph.HasEdge u v) (ownedU : decomposition.owner? u = some i)
    (ownedV : decomposition.owner? v = some j) :
    i = j ∨ decomposition.condensation.HasEdge i j := by
  by_cases same : i = j
  · exact Or.inl same
  · exact Or.inr (represents.condensation_edge_iff.mpr ⟨same, u, v, edge, ownedU, ownedV⟩)

/-- A path between components is a path between any two of their members. -/
theorem reaches_of_condensation (reach : decomposition.condensation.Reaches i j)
    (ownedU : decomposition.owner? u = some i) (ownedV : decomposition.owner? v = some j) :
    graph.Reaches u v := by
  induction reach generalizing v with
  | refl => exact ((represents.owner_eq_iff ownedU ownedV).mp rfl).1
  | tail _ edge ih =>
    -- The last edge ends at some member, and from there all members are reached.
    obtain ⟨-, x, y, leads, ownedX, ownedY⟩ := represents.condensation_edge_iff.mp edge
    have inside := ((represents.owner_eq_iff ownedY ownedV).mp rfl).1
    exact ((ih ownedX).tail leads).trans inside

/-- The condensation has no cycles. -/
theorem acyclic (edge : decomposition.condensation.HasEdge i j) :
    ¬ decomposition.condensation.Reaches j i := by
  intro back
  obtain ⟨different, u, v, leads, ownedU, ownedV⟩ := represents.condensation_edge_iff.mp edge
  -- The way back over components is a way back over members, so the two ends share a component.
  have returns : graph.Reaches v u := represents.reaches_of_condensation back ownedV ownedU
  exact different ((represents.owner_eq_iff ownedU ownedV).mpr ⟨.single leads, returns⟩)

/-- No walk over one edge or more leads from a component back to it. -/
theorem not_transGen_self (id : ComponentId) :
    ¬ Relation.TransGen decomposition.condensation.HasEdge id id := by
  intro cycle
  obtain ⟨next, edge, back⟩ := Relation.TransGen.head'_iff.mp cycle
  exact represents.acyclic edge back

/-- What passes from all predecessors of a component to the component holds of all components. -/
theorem condensation_induction {motive : ComponentId → Prop}
    (step : ∀ id ∈ decomposition.condensation.vertices,
      (∀ p, decomposition.condensation.HasEdge p id → motive p) → motive id) :
    ∀ id ∈ decomposition.condensation.vertices, motive id := by
  have : IsStrictOrder ComponentId (Relation.TransGen decomposition.condensation.HasEdge) :=
    { irrefl := represents.not_transGen_self, trans := fun _ _ _ => Relation.TransGen.trans }
  -- Finitely many vertices without a cycle have a well-founded order by paths.
  intro id vertex
  have founded := decomposition.condensation.vertices.toList.toFinset.wellFoundedOn
    (r := Relation.TransGen decomposition.condensation.HasEdge)
  refine founded.induction (by simpa using vertex) ?_
  intro id member before
  refine step id (by simpa using member) fun p edge => ?_
  have inside := (Graph.mem_vertices_of_hasEdge edge).1
  exact before p (by simpa using inside) (.single edge)

/-! ## First members -/

theorem owner?_firstDeclared (found : decomposition.component? id = some component) :
    decomposition.owner? component.firstDeclared = some id :=
  represents.owner?_eq_some_iff.mpr
    ⟨component, found, Component.firstDeclared_mem (represents.nonempty found)⟩

/-- Two components with the same first member are one. -/
theorem firstDeclared_inj (foundA : decomposition.component? i = some a)
    (foundB : decomposition.component? j = some b) (same : a.firstDeclared = b.firstDeclared) :
    i = j := by
  have ownedA := represents.owner?_firstDeclared foundA
  rw [same, represents.owner?_firstDeclared foundB] at ownedA
  exact (Option.some_inj.mp ownedA).symm

end Represents

end Decomposition

end DatalogStrata
