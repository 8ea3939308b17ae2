import DatalogStrata.Proofs.Stratum.Schedule

/-!
# Layerings of a graph

Told without component numbers, an order of the components is a list of layers: the classes of
vertices that reach each other, each once and in ascending order, so that no edge leads from a
later layer to an earlier one. Schedules under any numbering are exactly the layerings, so the
order of evaluation is the least layering whatever the numbering was.

## Main definitions

* `Graph.IsLayering` — the classes of a graph in an order in which edges lead forward
* `firstDeclarations` — the earliest declaration in each layer
* `Decomposition.layering` — the order of evaluation as a list of layers

## Main results

* `Graph.IsLayering.eq_of_firstDeclarations` — a layering is known by its earliest declarations
* `Decomposition.Represents.isLayering_layering`, `Decomposition.Represents.layering_le` — the order
  of evaluation is the least layering
* `Decomposition.Represents.layering_eq` — it is the same under any numbering
-/

namespace DatalogStrata

/-- The classes of vertices that reach each other, each once in ascending order, in an order in
which no edge leads from a later layer to an earlier one. -/
structure Graph.IsLayering (graph : Graph RelationId) (layers : List (List RelationId)) :
    Prop where
  covers : ∀ v ∈ graph.vertices, ∃ layer ∈ layers, v ∈ layer
  vertex : ∀ layer ∈ layers, ∀ v ∈ layer, v ∈ graph.vertices
  nonempty : ∀ layer ∈ layers, layer ≠ []
  class_iff : ∀ layer ∈ layers, ∀ v ∈ layer, ∀ w,
    w ∈ layer ↔ graph.Reaches v w ∧ graph.Reaches w v
  ascending : ∀ layer ∈ layers, Ascending layer
  distinct : layers.Nodup
  forward : layers.Pairwise fun earlier later =>
    ∀ u ∈ later, ∀ v ∈ earlier, ¬ graph.HasEdge u v

/-- The declaration that stands first in a layer. -/
def layerDeclaration (layer : List RelationId) : Nat :=
  (layer.head?.getD ⟨0⟩).index

/-- The declarations that stand first in each layer. -/
def firstDeclarations (layers : List (List RelationId)) : List Nat :=
  layers.map layerDeclaration

namespace Graph.IsLayering

variable {graph : Graph RelationId} {layers others : List (List RelationId)}
  {layer other : List RelationId} {v : RelationId}

/-- Two classes of a graph with a common member are equal. -/
theorem layer_eq (layering : graph.IsLayering layers) (layeringOther : graph.IsLayering others)
    (member : layer ∈ layers) (memberOther : other ∈ others) (inside : v ∈ layer)
    (insideOther : v ∈ other) : layer = other := by
  apply (layering.ascending layer member).eq_of_mem_iff
    (layeringOther.ascending other memberOther)
  intro w
  rw [layering.class_iff layer member v inside,
    layeringOther.class_iff other memberOther v insideOther]

theorem layerDeclaration_mem (layering : graph.IsLayering layers) (member : layer ∈ layers) :
    (⟨layerDeclaration layer⟩ : RelationId) ∈ layer := by
  cases layer with
  | nil => exact absurd rfl (layering.nonempty [] member)
  | cons first rest => exact List.mem_cons_self

/-- A layering is known by the earliest declarations in its layers. -/
theorem eq_of_firstDeclarations (layering : graph.IsLayering layers)
    (layeringOther : graph.IsLayering others)
    (same : firstDeclarations layers = firstDeclarations others) : layers = others := by
  have length : layers.length = others.length := by
    simpa [firstDeclarations] using congrArg List.length same
  refine List.ext_getElem length fun place bound boundOther => ?_
  have member := layers.getElem_mem bound
  have memberOther := others.getElem_mem boundOther
  -- The relation that stands first in both layers at a place is in both of them.
  have declared : layerDeclaration layers[place] = layerDeclaration others[place] := by
    simpa [firstDeclarations, bound, boundOther] using congrArg (·[place]?) same
  have inside := layering.layerDeclaration_mem member
  rw [declared] at inside
  exact layering.layer_eq layeringOther member memberOther inside
    (layeringOther.layerDeclaration_mem memberOther)

end Graph.IsLayering

namespace Decomposition

/-- The members of a component in ascending order; none for a number that is not given. -/
def relationsOf (decomposition : Decomposition) (id : ComponentId) : List RelationId :=
  ((decomposition.component? id).map fun component => component.members.toList).getD []

/-- The order of evaluation as a list of layers. -/
def layering (decomposition : Decomposition) : List (List RelationId) :=
  decomposition.evaluationOrder.map decomposition.relationsOf

variable {decomposition : Decomposition} {id i j : ComponentId} {v : RelationId}
  {graph : Graph RelationId} {order : List ComponentId} {layers : List (List RelationId)}

theorem relationsOf_eq {component : Component} (found : decomposition.component? id = some component) :
    decomposition.relationsOf id = component.members.toList := by
  rw [relationsOf, found]
  rfl

theorem layerDeclaration_relationsOf (decomposition : Decomposition) (id : ComponentId) :
    layerDeclaration (decomposition.relationsOf id) = decomposition.firstDeclaration id := by
  unfold layerDeclaration relationsOf firstDeclaration key
  cases decomposition.component? id with
  | none => rfl
  | some component =>
    simp only [Option.map_some, Option.getD_some, Component.firstDeclared, List.head?_eq_getElem?,
      Array.getElem?_toList]

theorem firstDeclarations_map (decomposition : Decomposition) (order : List ComponentId) :
    firstDeclarations (order.map decomposition.relationsOf) =
      order.map decomposition.firstDeclaration := by
  rw [firstDeclarations, List.map_map]
  exact List.map_congr_left fun id _ => decomposition.layerDeclaration_relationsOf id

namespace Represents

variable (represents : decomposition.Represents graph)
include represents

theorem mem_relationsOf_iff : v ∈ decomposition.relationsOf id ↔
    decomposition.owner? v = some id := by
  rw [represents.owner?_eq_some_iff, relationsOf]
  cases decomposition.component? id with
  | none => simp
  | some component => simp [Array.mem_toList_iff]

theorem relationsOf_ne_nil (vertex : id ∈ decomposition.condensation.vertices) :
    decomposition.relationsOf id ≠ [] := by
  obtain ⟨component, found⟩ :=
    component?_eq_some_iff.mpr (represents.mem_condensation_iff.mp vertex)
  rw [relationsOf_eq found, ne_eq, Array.toList_eq_nil_iff]
  exact represents.nonempty found

theorem relationsOf_ascending (id : ComponentId) : Ascending (decomposition.relationsOf id) := by
  cases found : decomposition.component? id with
  | none =>
    rw [relationsOf, found]
    exact List.Pairwise.nil
  | some component => exact relationsOf_eq found ▸ represents.ascending found

/-- Components with the same members are one. -/
theorem relationsOf_inj (vertex : i ∈ decomposition.condensation.vertices)
    (same : decomposition.relationsOf i = decomposition.relationsOf j) : i = j := by
  obtain ⟨v, member⟩ := List.exists_mem_of_ne_nil _ (represents.relationsOf_ne_nil vertex)
  have owned := represents.mem_relationsOf_iff.mp member
  rw [same, represents.mem_relationsOf_iff, owned] at member
  exact Option.some_inj.mp member

theorem mem_relationsOf_iff_reaches {w : RelationId} (member : v ∈ decomposition.relationsOf id) :
    w ∈ decomposition.relationsOf id ↔ graph.Reaches v w ∧ graph.Reaches w v := by
  have owned := represents.mem_relationsOf_iff.mp member
  rw [represents.mem_relationsOf_iff]
  constructor
  · exact fun ownedW => (represents.owner_eq_iff owned ownedW).mp rfl
  · intro both
    have vertex : w ∈ graph.vertices :=
      Graph.mem_vertices_of_reaches (represents.owner?_isSome_iff.mp ⟨id, owned⟩) both.1
    obtain ⟨other, ownedW⟩ := represents.owner?_isSome_iff.mpr vertex
    rw [ownedW, (represents.owner_eq_iff owned ownedW).mpr both]

/-- The members of a component are what reaches one of them and is reached from it. -/
theorem mem_members_iff_reaches {component : Component} {w : RelationId}
    (found : decomposition.component? id = some component) (member : v ∈ component.members) :
    w ∈ component.members ↔ graph.Reaches v w ∧ graph.Reaches w v := by
  simp only [← Array.mem_toList_iff, ← relationsOf_eq found] at member ⊢
  exact represents.mem_relationsOf_iff_reaches member

/-- A schedule, told by its members, is a layering. -/
theorem isLayering_of_isSchedule (schedule : decomposition.IsSchedule order) :
    graph.IsLayering (order.map decomposition.relationsOf) := by
  have distinct := schedule.nodup represents.condensation_wellFormed
  exact
    { covers := by
        intro v vertex
        obtain ⟨id, owned⟩ := represents.owner?_isSome_iff.mpr vertex
        have inside := schedule.mem_iff.mpr (represents.mem_condensation_iff.mpr (owner?_lt owned))
        exact ⟨_, List.mem_map_of_mem inside, represents.mem_relationsOf_iff.mpr owned⟩
      vertex := by
        intro layer member v inside
        obtain ⟨id, -, rfl⟩ := List.mem_map.mp member
        exact represents.owner?_isSome_iff.mp ⟨id, represents.mem_relationsOf_iff.mp inside⟩
      nonempty := by
        intro layer member
        obtain ⟨id, ordered, rfl⟩ := List.mem_map.mp member
        exact represents.relationsOf_ne_nil (schedule.mem_iff.mp ordered)
      class_iff := by
        intro layer member v inside w
        obtain ⟨id, -, rfl⟩ := List.mem_map.mp member
        exact represents.mem_relationsOf_iff_reaches inside
      ascending := by
        intro layer member
        obtain ⟨id, -, rfl⟩ := List.mem_map.mp member
        exact represents.relationsOf_ascending id
      distinct := by
        refine distinct.map_on fun i ordered j _ same => ?_
        exact represents.relationsOf_inj (schedule.mem_iff.mp ordered) same
      forward := by
        have forward := schedule.forward.and distinct
        refine List.pairwise_map.mpr (forward.imp ?_)
        rintro i j ⟨noEdge, different⟩ u inLater v inEarlier edge
        have ownedU := represents.mem_relationsOf_iff.mp inLater
        have ownedV := represents.mem_relationsOf_iff.mp inEarlier
        rcases represents.condensation_of_edge edge ownedU ownedV with same | back
        · exact different same.symm
        · exact noEdge back }

/-- A layer of a layering is the member list of a component. -/
theorem exists_relationsOf (layering : graph.IsLayering layers) {layer : List RelationId}
    (member : layer ∈ layers) :
    ∃ id ∈ decomposition.condensation.vertices, decomposition.relationsOf id = layer := by
  obtain ⟨v, inside⟩ := List.exists_mem_of_ne_nil layer (layering.nonempty layer member)
  obtain ⟨id, owned⟩ := represents.owner?_isSome_iff.mpr (layering.vertex layer member v inside)
  refine ⟨id, represents.mem_condensation_iff.mpr (owner?_lt owned), ?_⟩
  apply (represents.relationsOf_ascending id).eq_of_mem_iff (layering.ascending layer member)
  intro w
  rw [represents.mem_relationsOf_iff_reaches (represents.mem_relationsOf_iff.mpr owned),
    layering.class_iff layer member v inside]

/-- Every layering is a schedule, told by its members. -/
theorem exists_schedule (layering : graph.IsLayering layers) :
    ∃ order, decomposition.IsSchedule order ∧ order.map decomposition.relationsOf = layers := by
  -- Each layer is numbered by itself, in the order in which the layers stand.
  have numbered : ∀ part : List (List RelationId), part ⊆ layers →
      ∃ order : List ComponentId, (∀ id ∈ order, id ∈ decomposition.condensation.vertices) ∧
        order.map decomposition.relationsOf = part := by
    intro part
    induction part with
    | nil => exact fun _ => ⟨[], by simp, rfl⟩
    | cons layer rest ih =>
      intro inside
      obtain ⟨id, vertex, members⟩ :=
        represents.exists_relationsOf layering (inside List.mem_cons_self)
      obtain ⟨order, vertices, rfl⟩ := ih (List.subset_of_cons_subset inside)
      exact ⟨id :: order, List.forall_mem_cons.mpr ⟨vertex, vertices⟩, by
        rw [List.map_cons, members]⟩
  obtain ⟨order, vertices, rfl⟩ := numbered layers (List.Subset.refl _)
  refine ⟨order, ⟨?_, ?_⟩, rfl⟩
  · refine (List.perm_ext_iff_of_nodup layering.distinct.of_map
      represents.condensation_wellFormed.vertices_nodup).mpr fun id => ?_
    refine ⟨fun ordered => Array.mem_toList_iff.mpr (vertices id ordered), fun listed => ?_⟩
    have vertex := Array.mem_toList_iff.mp listed
    -- Some member of the component is in a layer, which is then the component itself.
    obtain ⟨v, inside⟩ := List.exists_mem_of_ne_nil _ (represents.relationsOf_ne_nil vertex)
    have owned := represents.mem_relationsOf_iff.mp inside
    obtain ⟨_, member, inLayer⟩ := layering.covers v (represents.owner?_isSome_iff.mp ⟨id, owned⟩)
    obtain ⟨other, ordered, rfl⟩ := List.mem_map.mp member
    rw [represents.mem_relationsOf_iff, owned] at inLayer
    exact Option.some_inj.mp inLayer ▸ ordered
  · refine (List.pairwise_map.mp layering.forward).imp fun {i j} noEdge back => ?_
    obtain ⟨-, u, v, edge, ownedU, ownedV⟩ := represents.condensation_edge_iff.mp back
    exact noEdge u (represents.mem_relationsOf_iff.mpr ownedU) v
      (represents.mem_relationsOf_iff.mpr ownedV) edge

/-- The order of evaluation is a layering. -/
theorem isLayering_layering : graph.IsLayering decomposition.layering :=
  represents.isLayering_of_isSchedule represents.isSchedule_evaluationOrder

/-- The layers are the member lists of the components. -/
theorem layering_perm : decomposition.layering.Perm
    (decomposition.components.toList.map fun component => component.members.toList) := by
  have members : ((List.range decomposition.size).map ComponentId.mk).map
      decomposition.relationsOf =
        decomposition.components.toList.map fun component => component.members.toList := by
    apply List.ext_getElem
    · simp [size]
    · intro place bound _
      have inside : place < decomposition.components.size := by simpa [size] using bound
      simp only [List.getElem_map, List.getElem_range, Array.getElem_toList]
      exact relationsOf_eq (Array.getElem?_eq_getElem inside)
  rw [← members, ← represents.condensation_vertices]
  exact represents.isSchedule_evaluationOrder.complete.map _

/-- No layering has a lexicographically smaller sequence of declarations. -/
theorem layering_le (layering : graph.IsLayering layers) :
    firstDeclarations decomposition.layering ≤ firstDeclarations layers := by
  obtain ⟨order, schedule, rfl⟩ := represents.exists_schedule layering
  rw [Decomposition.layering, firstDeclarations_map, firstDeclarations_map]
  exact represents.evaluationOrder_le schedule

/-- Whatever the numbering of the components, the order of evaluation has the same layers. -/
theorem layering_eq {other : Decomposition} (representsOther : other.Represents graph) :
    decomposition.layering = other.layering := by
  apply represents.isLayering_layering.eq_of_firstDeclarations representsOther.isLayering_layering
  exact le_antisymm (represents.layering_le representsOther.isLayering_layering)
    (representsOther.layering_le represents.isLayering_layering)

end Represents

end Decomposition

end DatalogStrata
