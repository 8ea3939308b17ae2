import DatalogStrata.Graph.Checked
import DatalogStrata.Proofs.Graph.FirstInsertion
import DatalogStrata.Proofs.Traversal

/-!
# Nothing fails within the bounds of a graph

The tables of a well-formed graph name nothing that is missing, so to read and to grow it with each
place checked does not fail, and the results are those of the unchecked operations.

## Main results

* `Graph.WellFormed.edges?_eq`, `Graph.WellFormed.sign?_eq`, `Graph.WellFormed.selfLoop?_eq`,
  `Graph.WellFormed.insertEdge?_eq` — nothing fails
-/

namespace DatalogStrata

namespace Graph

variable {V : Type} {graph : Graph V}

variable [DecidableEq V]

namespace WellFormed

variable (wellFormed : graph.WellFormed)
include wellFormed

omit [DecidableEq V] in
theorem getElem?_outgoing {position : Nat} (bound : position < graph.vertices.size) :
    graph.outgoing[position]? = some (graph.arrows position) := by
  rw [← wellFormed.outgoing_size] at bound
  rw [arrows, Array.getElem?_eq_getElem bound, Option.getD_some]

omit [DecidableEq V] in
/-- A slot that is told for two positions is there. -/
theorem getElem?_outgoing_of_slot? {source target slot : Nat}
    (told : graph.slot? source target = some slot) :
    graph.outgoing[source]? = some (graph.arrows source) ∧
      slot < (graph.arrows source).size := by
  obtain ⟨arrow, placed, rfl⟩ := wellFormed.exists_of_slot? told
  have leads := mem_targets_iff.mpr ⟨arrow, Array.mem_of_getElem? placed, rfl⟩
  exact ⟨wellFormed.getElem?_outgoing (wellFormed.source_lt leads),
    (Array.getElem?_eq_some_iff.mp placed).1⟩

/-- Every arrow at a vertex has an edge. -/
theorem mapM_edgeAt? {position : Nat} {source : V}
    (placed : graph.vertices[position]? = some source) :
    (graph.arrows position).toList.mapM (graph.edgeAt? position) =
      some ((graph.successorEdges source).map fun next => ⟨source, next.1, next.2⟩) := by
  have edge (arrow : Arrow) : graph.edgeAt? position arrow =
      (graph.labelled? arrow).map fun next => ⟨source, next.1, next.2⟩ := by
    rw [edgeAt?, labelled?, placed, Option.map_map]
    cases graph.vertices[arrow.target]? <;> rfl
  have found := wellFormed.position?_eq_some_iff.mpr placed
  rw [mapM_eq_some_filterMap]
  · simp only [successorEdges, found, List.map_filterMap, edge]
  · intro arrow leaves
    obtain ⟨next, labelled⟩ := wellFormed.exists_labelled? (Array.mem_toList_iff.mp leaves)
    exact ⟨_, by rw [edge, labelled, Option.map_some]⟩

/-- The edges of a well-formed graph are listed without failing. -/
theorem edges?_eq : graph.edges? = some graph.edges := by
  have rows : (graph.outgoing.toList.zipIdx.mapM fun row =>
      row.1.toList.mapM (graph.edgeAt? row.2)) =
        some (graph.vertices.toList.map fun source =>
          (graph.successorEdges source).map fun next => ⟨source, next.1, next.2⟩) := by
    refine mapM_eq_some_iff.mpr (List.forall₂_iff_get.mpr ⟨?_, ?_⟩)
    · simp [wellFormed.outgoing_size]
    · intro position inRows inVertices
      have bound : position < graph.vertices.size := by simpa using inVertices
      have kept := wellFormed.getElem?_outgoing bound
      have row := wellFormed.mapM_edgeAt? (Array.getElem?_eq_getElem bound)
      rw [← Option.some_inj.mp ((Array.getElem?_eq_getElem _).symm.trans kept)] at row
      simpa using row
  rw [wellFormed.edges_eq, List.flatMap_def]
  exact congrArg (Option.bind · fun rows => some rows.flatten) rows

/-- A sign is looked up without failing. -/
theorem sign?_eq (source target : V) :
    graph.sign? source target = some (graph.polarity? source target) := by
  unfold sign? polarity?
  cases graph.position? source with
  | none => rfl
  | some source =>
    cases graph.position? target with
    | none => rfl
    | some target =>
      cases told : graph.slot? source target with
      | none => simp [told]
      | some slot =>
        obtain ⟨row, bound⟩ := wellFormed.getElem?_outgoing_of_slot? told
        simp [told, row, Array.getElem?_eq_getElem bound]

theorem selfLoop?_eq (label : V) : graph.selfLoop? label = some (graph.hasSelfLoop label) := by
  rw [selfLoop?, wellFormed.sign?_eq, Option.map_some, hasSelfLoop]

/-- An edge is inserted without failing. -/
theorem insertEdge?_eq (edge : Edge V) :
    graph.insertEdge? edge = some (graph.insertEdge edge) := by
  have grown := (wellFormed.insertVertex edge.source).insertVertex edge.target
  obtain ⟨atSource, atTarget⟩ := wellFormed.getElem?_insertVertex_ends edge.source edge.target
  dsimp only [insertEdge?]
  obtain ⟨slot, told, merged⟩ | ⟨new, linked⟩ := insertEdge_cases graph edge
  · obtain ⟨row, bound⟩ := grown.getElem?_outgoing_of_slot? told
    rw [told, merged, row]
    exact guard_bind bound _
  · have sourceBound := (Array.getElem?_eq_some_iff.mp atSource).1
    have targetBound := (Array.getElem?_eq_some_iff.mp atTarget).1
    rw [← grown.outgoing_size] at sourceBound
    rw [← grown.incoming_size] at targetBound
    rw [new, linked]
    exact guard_bind ⟨sourceBound, targetBound⟩ _

end WellFormed

end Graph

end DatalogStrata
