import DatalogStrata.Proofs.Graph.History

/-!
# A graph built again from its listing

The vertices of a graph in order, followed by its edges source by source, are a log that builds the
graph again, with one difference. The listing keeps the order in which each vertex got its outgoing
edges but not the order of insertions at different vertices, so what enters a vertex is now entered
in the order of the sources. A graph in which this was the order already comes out as it was, and a
graph that comes out of its listing stays as it is from then on.

The proof compares listings. That two graphs list the same edges out of each vertex says that their
tables of edges are the same, because in a well-formed graph a row of positions can be recovered
from its labels.

## Main definitions

* `Graph.arrowTo?` — an arrow by the label at which it ends

## Main results

* `Graph.WellFormed.arrows_eq`, `Graph.WellFormed.sources_eq` — rows recovered from listings
* `Graph.WellFormed.outgoing_congr` — the listings of outgoing edges tell their table
* `Graph.vertices_relisted`, `Graph.successorEdges_relisted`,
  `Graph.predecessors_relisted_sublist` — what the graph of a listing lists
* `Graph.relisted_ofInsertions` — what is kept when a graph is built from its listing
-/

namespace DatalogStrata

/-- Tables of one size with the same rows are the same. -/
theorem eq_of_rows {α : Type} {rows others : Array α} (size : rows.size = others.size) (empty : α)
    (same : ∀ place : Nat, place < rows.size →
      rows[place]?.getD empty = others[place]?.getD empty) : rows = others := by
  refine Array.ext size fun place bound boundOther => ?_
  have row := same place bound
  rwa [Array.getElem?_eq_getElem bound, Array.getElem?_eq_getElem boundOther, Option.getD_some,
    Option.getD_some] at row

attribute [ext] Graph

namespace Graph

variable {V : Type} {graph other : Graph V}

/-! ## Rows recovered from listings -/

section Rows

variable [DecidableEq V] {positions : List Nat} {labels : List V} {label : V} {position : Nat}

/-- The arrow to a label with a sign. -/
def arrowTo? (graph : Graph V) (next : V × Polarity) : Option Arrow :=
  (graph.position? next.1).map fun target => ⟨target, next.2⟩

namespace WellFormed

variable (wellFormed : graph.WellFormed)
include wellFormed

/-- Positions are recovered from their labels. -/
theorem filterMap_position? (inside : ∀ position ∈ positions, position < graph.vertices.size) :
    (positions.filterMap (graph.vertices[·]?)).filterMap graph.position? = positions := by
  have kept : ∀ position ∈ positions,
      (graph.vertices[position]?).bind graph.position? = some position := by
    intro position member
    have placed := Array.getElem?_eq_getElem (inside position member)
    rw [placed, Option.bind_some]
    exact wellFormed.position?_eq_some_iff.mpr placed
  rw [List.filterMap_filterMap, List.filterMap_congr kept, List.filterMap_some]

/-- The arrows at a position are those to the successors of its label. -/
theorem arrows_eq (placed : graph.vertices[position]? = some label) :
    (graph.arrows position).toList = (graph.successorEdges label).filterMap graph.arrowTo? := by
  have kept : ∀ arrow ∈ (graph.arrows position).toList,
      (graph.labelled? arrow).bind graph.arrowTo? = some arrow := by
    intro arrow leaves
    obtain ⟨next, labelled⟩ := wellFormed.exists_labelled? (Array.mem_toList_iff.mp leaves)
    have atTarget := (labelled?_eq_some_iff.mp labelled).1
    rw [labelled, Option.bind_some, arrowTo?, wellFormed.position?_eq_some_iff.mpr atTarget,
      Option.map_some]
  have found := wellFormed.position?_eq_some_iff.mpr placed
  simp only [successorEdges, found]
  rw [List.filterMap_filterMap, List.filterMap_congr kept, List.filterMap_some]

/-- The sources at a position are the predecessors of its label. -/
theorem sources_eq (placed : graph.vertices[position]? = some label) :
    (graph.sources position).toList = (graph.predecessors label).filterMap graph.position? := by
  rw [predecessors_eq_neighbours, wellFormed.neighbours_eq placed, wellFormed.filterMap_position?]
  exact fun source enters => wellFormed.lt_of_mem_sources (Array.mem_toList_iff.mp enters)

/-- Labels in vertex order stand at ascending positions. -/
theorem positions_ascending (ordered : labels.Sublist graph.vertices.toList) :
    (labels.filterMap graph.position?).Pairwise (· < ·) := by
  refine List.Pairwise.sublist (ordered.filterMap graph.position?) ?_
  rw [List.pairwise_filterMap, List.pairwise_iff_getElem]
  intro i j atI atJ before p foundP q foundQ
  have placedI : graph.vertices[i]? = some graph.vertices.toList[i] := by
    rw [← Array.getElem?_toList, List.getElem?_eq_getElem atI]
  have placedJ : graph.vertices[j]? = some graph.vertices.toList[j] := by
    rw [← Array.getElem?_toList, List.getElem?_eq_getElem atJ]
  obtain rfl := wellFormed.position_unique placedI (wellFormed.position?_eq_some_iff.mp foundP)
  obtain rfl := wellFormed.position_unique placedJ (wellFormed.position?_eq_some_iff.mp foundQ)
  exact before

end WellFormed

end Rows

/-! ## Tables told by listings -/

namespace WellFormed

variable (wellFormed : graph.WellFormed) (otherFormed : other.WellFormed)
  (vertices : other.vertices = graph.vertices)
include wellFormed otherFormed vertices

theorem places_congr : other.places = graph.places := by
  rw [otherFormed.places_eq, wellFormed.places_eq, vertices]

/-- Graphs over the same vertices with the same listings of outgoing edges have the same table of
them. -/
theorem outgoing_congr [DecidableEq V]
    (same : ∀ label, other.successorEdges label = graph.successorEdges label) :
    other.outgoing = graph.outgoing := by
  have size : other.outgoing.size = graph.outgoing.size := by
    rw [otherFormed.outgoing_size, wellFormed.outgoing_size, vertices]
  have arrowTo : other.arrowTo? = graph.arrowTo? := by
    funext next
    rw [arrowTo?, position?, wellFormed.places_congr otherFormed vertices]
    rfl
  refine eq_of_rows size #[] fun position bound => ?_
  rw [otherFormed.outgoing_size, vertices] at bound
  have placed := Array.getElem?_eq_getElem bound
  have placedOther : other.vertices[position]? = some graph.vertices[position] := by
    rw [vertices]
    exact placed
  have rows : (other.arrows position).toList = (graph.arrows position).toList := by
    rw [otherFormed.arrows_eq placedOther, wellFormed.arrows_eq placed, same, arrowTo]
  exact Array.toList_inj.mp rows

/-- The slots are told by the edges that stand in them. -/
theorem slots_congr (outgoing : other.outgoing = graph.outgoing) : other.slots = graph.slots := by
  have size : other.slots.size = graph.slots.size := by
    rw [otherFormed.slots_size, wellFormed.slots_size, vertices]
  refine eq_of_rows size [] fun position _ => ?_
  have rows : other.slotsFrom position = graph.slotsFrom position := by
    rw [otherFormed.slotsFrom_eq, wellFormed.slotsFrom_eq, targets, targets, arrows, arrows,
      outgoing]
  exact rows

end WellFormed

/-! ## The graph of a listing -/

theorem edge_mem_listing_iff {edge : Edge V} :
    .edge edge ∈ graph.listing ↔ edge ∈ graph.edges := by
  simp [listing]

variable [DecidableEq V]

theorem wellFormed_relisted (graph : Graph V) : graph.relisted.WellFormed :=
  wellFormed_ofInsertions graph.listing

section Relisted

variable (wellFormed : graph.WellFormed)
include wellFormed

/-- What is read off the edges of a listing is read off what leaves each of its vertices. -/
theorem flatMap_listing {α : Type} {read : Insertion V → List α}
    (silent : ∀ label, read (.vertex label) = []) :
    graph.listing.flatMap read = graph.vertices.toList.flatMap fun source =>
      (graph.successorEdges source).flatMap fun next => read (.edge ⟨source, next.1, next.2⟩) := by
  have alone : (graph.vertices.toList.map Insertion.vertex).flatMap read = [] := by
    simp [List.flatMap_map, silent]
  rw [listing, List.flatMap_append, alone, List.nil_append, wellFormed.edges_eq, List.flatMap_map,
    List.flatMap_assoc]
  simp only [List.flatMap_map]

theorem vertices_relisted : graph.relisted.vertices = graph.vertices := by
  have alone : (graph.vertices.toList.map Insertion.vertex).flatMap Insertion.labels =
      graph.vertices.toList := by
    rw [List.flatMap_map]
    exact List.flatMap_singleton' _
  rw [← Array.toList_inj, relisted, vertices_ofInsertions, listing, List.flatMap_append, alone]
  refine eraseDups_append_of_mem wellFormed.vertices_nodup fun label mentioned => ?_
  -- The ends of an edge are vertices, and those have been listed.
  obtain ⟨insertion, listed, inside⟩ := List.mem_flatMap.mp mentioned
  obtain ⟨edge, member, rfl⟩ := List.mem_map.mp listed
  obtain ⟨source, target⟩ := mem_vertices_of_hasEdge ⟨edge.polarity, member⟩
  rw [Insertion.labels, List.mem_pair] at inside
  rw [Array.mem_toList_iff]
  rcases inside with rfl | rfl
  · exact source
  · exact target

theorem polarity?_relisted (u v : V) : graph.relisted.polarity? u v = graph.polarity? u v := by
  rw [relisted, polarity?_ofInsertions, insertedSign?]
  simp only [edge_mem_listing_iff, wellFormed.mem_edges_iff]
  cases graph.polarity? u v with
  | none => rfl
  | some sign => cases sign <;> rfl

theorem successors_relisted (label : V) :
    graph.relisted.successors label = graph.successors label := by
  have brought : graph.listing.flatMap (Insertion.targetsFrom label) = graph.successors label := by
    have own (source : V) : ((graph.successorEdges source).flatMap fun next =>
        Insertion.targetsFrom label (.edge ⟨source, next.1, next.2⟩)) =
          if source = label then graph.successors source else [] := by
      by_cases same : source = label
      · simp [Insertion.targetsFrom, same, successors, List.map_eq_flatMap]
      · simp [Insertion.targetsFrom, same]
    rw [flatMap_listing wellFormed fun _ => rfl]
    simp only [own]
    by_cases member : label ∈ graph.vertices.toList
    · exact flatMap_ite_eq wellFormed.vertices_nodup member graph.successors
    · rw [(wellFormed.neighbours_of_unknown (mt Array.mem_toList_iff.mpr member)).1,
        List.flatMap_eq_nil_iff]
      intro source inside
      refine if_neg ?_
      rintro rfl
      exact member inside
  rw [relisted, successors_ofInsertions, brought]
  exact eraseDups_of_nodup (wellFormed.successors_nodup label)

theorem successorEdges_relisted (label : V) :
    graph.relisted.successorEdges label = graph.successorEdges label := by
  rw [(wellFormed_relisted graph).successorEdges_eq, wellFormed.successorEdges_eq,
    successors_relisted wellFormed]
  simp only [polarity?_relisted wellFormed]

/-- What enters a vertex is now entered in the order of its sources. -/
theorem predecessors_relisted_sublist (label : V) :
    (graph.relisted.predecessors label).Sublist graph.vertices.toList := by
  rw [relisted, predecessors_ofInsertions, flatMap_listing wellFormed fun _ => rfl,
    eraseDups_flatMap_own ?own wellFormed.vertices_nodup]
  · exact List.filter_sublist
  case own =>
    intro source other brought
    obtain ⟨next, -, inside⟩ := List.mem_flatMap.mp brought
    rw [Insertion.sourcesInto, List.mem_ite_nil_right, List.mem_singleton] at inside
    exact inside.2

/-! ## The tables of the graph of a listing -/

theorem outgoing_relisted : graph.relisted.outgoing = graph.outgoing :=
  wellFormed.outgoing_congr (wellFormed_relisted graph) (vertices_relisted wellFormed)
    (successorEdges_relisted wellFormed)

/-- The sources at a position are the same as before. -/
theorem sources_relisted_perm (position : Nat) :
    (graph.relisted.sources position).toList.Perm (graph.sources position).toList := by
  have again := wellFormed_relisted graph
  refine (List.perm_ext_iff_of_nodup (again.sources_nodup position)
    (wellFormed.sources_nodup position)).mpr fun source => ?_
  rw [Array.mem_toList_iff, Array.mem_toList_iff, again.mem_sources_iff,
    wellFormed.mem_sources_iff, targets, targets, arrows, arrows, outgoing_relisted wellFormed]

/-- The sources at a position ascend now. -/
theorem sources_relisted_ascending (position : Nat) :
    (graph.relisted.sources position).toList.Pairwise (· < ·) := by
  have again := wellFormed_relisted graph
  have vertices := vertices_relisted wellFormed
  cases placed : graph.relisted.vertices[position]? with
  | none =>
    -- No edge enters what is no position.
    have nothing : (graph.relisted.sources position).toList = [] := by
      refine List.eq_nil_iff_forall_not_mem.mpr fun source enters => ?_
      have leads := again.mem_sources_iff.mp (Array.mem_toList_iff.mp enters)
      exact Nat.not_lt.mpr (Array.getElem?_eq_none_iff.mp placed) (again.target_lt leads)
    rw [nothing]
    exact List.Pairwise.nil
  | some label =>
    rw [again.sources_eq placed]
    exact again.positions_ascending (vertices ▸ predecessors_relisted_sublist wellFormed label)

/-- A graph comes out of its listing as it was if its sources ascended already. -/
theorem relisted_eq_iff : graph.relisted = graph ↔
    ∀ position, (graph.sources position).toList.Pairwise (· < ·) := by
  constructor
  · intro same position
    have ascending := sources_relisted_ascending wellFormed position
    rwa [same] at ascending
  · intro ascending
    have again := wellFormed_relisted graph
    have vertices := vertices_relisted wellFormed
    have outgoing := outgoing_relisted wellFormed
    have size : graph.relisted.incoming.size = graph.incoming.size := by
      rw [again.incoming_size, wellFormed.incoming_size, vertices]
    refine Graph.ext vertices (wellFormed.places_congr again vertices) outgoing
      (eq_of_rows size #[] fun position _ => ?_) (wellFormed.slots_congr again vertices outgoing)
    have rows : (graph.relisted.sources position).toList = (graph.sources position).toList :=
      (sources_relisted_perm wellFormed position).eq_of_pairwise
        (fun _ _ _ _ less more => absurd less (Nat.lt_asymm more))
        (sources_relisted_ascending wellFormed position) (ascending position)
    exact Array.toList_inj.mp rows

theorem listing_relisted : graph.relisted.listing = graph.listing := by
  have edges : graph.relisted.edges = graph.edges := by
    rw [(wellFormed_relisted graph).edges_eq, wellFormed.edges_eq, vertices_relisted wellFormed]
    simp only [successorEdges_relisted wellFormed]
  rw [listing, edges, vertices_relisted wellFormed, listing]

end Relisted

/-- What is kept when a graph is built again from its listing, its vertices in order and then its
edges: the vertices and their places, and what leaves each vertex with its order, signs and slots.
What enters a vertex stays the same up to its order, which is that of the sources now, so the whole
graph is kept exactly when all that enters a vertex was in this order before. Building it once more
changes nothing. -/
theorem relisted_ofInsertions (log : List (Insertion V)) :
    let graph := ofInsertions log
    let again := ofInsertions (graph.vertices.toList.map .vertex ++ graph.edges.map .edge)
    again.vertices = graph.vertices ∧
    again.places = graph.places ∧
    again.outgoing = graph.outgoing ∧
    again.slots = graph.slots ∧
    again.incoming.size = graph.incoming.size ∧
    (∀ position, (again.sources position).toList.Perm (graph.sources position).toList) ∧
    (again = graph ↔ ∀ position, (graph.sources position).toList.Pairwise (· < ·)) ∧
    ofInsertions (again.vertices.toList.map .vertex ++ again.edges.map .edge) = again := by
  intro graph again
  have wellFormed : graph.WellFormed := wellFormed_ofInsertions log
  have againFormed : again.WellFormed := wellFormed_relisted graph
  have vertices : again.vertices = graph.vertices := vertices_relisted wellFormed
  have outgoing : again.outgoing = graph.outgoing := outgoing_relisted wellFormed
  refine ⟨vertices, wellFormed.places_congr againFormed vertices, outgoing,
    wellFormed.slots_congr againFormed vertices outgoing, ?_, sources_relisted_perm wellFormed,
    relisted_eq_iff wellFormed, congrArg ofInsertions (listing_relisted wellFormed)⟩
  rw [againFormed.incoming_size, wellFormed.incoming_size, vertices]

end Graph

end DatalogStrata
