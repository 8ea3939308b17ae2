import DatalogStrata.Proofs.Graph.FirstInsertion

/-!
# A graph as its history tells it

Everything that a graph answers can be read off the log that has built it: its vertices and the
neighbours of each of them in the order of their first insertion, and the sign between two labels,
which is negative once any insertion has made it so. The edges are then listed vertex by vertex.
Nothing else of the log is left in the graph's answers.

## Main definitions

* `insertedSign?` — the sign that a log gives to an edge

## Main results

* `Graph.polarity?_ofInsertions` — the sign between two labels by the log
* `Graph.WellFormed.successorEdges_eq` — the edges out of a vertex by its successors and their signs
* `Graph.answers_ofInsertions` — all that a graph answers, by the log that has built it
-/

namespace DatalogStrata

/-- The sign that a log gives to the edge between two labels: none if it inserts no such edge, and
otherwise a negative one if it inserts a negative one anywhere. -/
def insertedSign? {V : Type} [DecidableEq V] (log : List (Insertion V)) (source target : V) :
    Option Polarity :=
  if .edge ⟨source, target, .negative⟩ ∈ log then some .negative
  else if .edge ⟨source, target, .positive⟩ ∈ log then some .positive
  else none

namespace Graph

variable {V : Type} [DecidableEq V] {graph : Graph V}

/-- The sign between two labels is the one that the log gives to their edge. -/
theorem polarity?_ofInsertions (log : List (Insertion V)) (u v : V) :
    (ofInsertions log).polarity? u v = insertedSign? log u v := by
  have wellFormed := wellFormed_ofInsertions log
  unfold insertedSign?
  split
  case isTrue negative =>
    exact wellFormed.mem_edges_iff.mp (negative_ofInsertions.mpr negative)
  case isFalse notNegative =>
    rw [← negative_ofInsertions] at notNegative
    split
    case isTrue positive =>
      have edge := hasEdge_ofInsertions.mpr ⟨.positive, positive⟩
      exact wellFormed.mem_edges_iff.mp (wellFormed.positive_iff.mpr ⟨edge, notNegative⟩)
    case isFalse notPositive =>
      rw [Option.eq_none_iff_forall_ne_some]
      intro sign found
      have edge := wellFormed.hasEdge_iff.mpr ⟨sign, found⟩
      obtain ⟨inserted, member⟩ := hasEdge_ofInsertions.mp edge
      -- Whatever sign it was inserted with, the edge has been excluded.
      cases inserted with
      | positive => exact notPositive member
      | negative => exact notNegative (negative_ofInsertions.mpr member)

namespace WellFormed

variable (wellFormed : graph.WellFormed)
include wellFormed

/-- The edges out of a vertex are its successors, each with the sign of its edge. -/
theorem successorEdges_eq (label : V) : graph.successorEdges label =
    (graph.successors label).filterMap fun next =>
      (graph.polarity? label next).map fun sign => (next, sign) := by
  have kept : ∀ next ∈ graph.successorEdges label,
      some next = (graph.polarity? label next.1).map fun sign => (next.1, sign) := by
    intro next listed
    rw [wellFormed.mem_successorEdges_iff.mp listed, Option.map_some]
  rw [successors, List.filterMap_map]
  calc graph.successorEdges label
    _ = (graph.successorEdges label).filterMap some := List.filterMap_some.symm
    _ = _ := List.filterMap_congr kept

/-- A label that is no vertex has no neighbours. -/
theorem neighbours_of_unknown {label : V} (unknown : label ∉ graph.vertices) :
    graph.successors label = [] ∧ graph.predecessors label = [] := by
  rw [successors_eq_neighbours, predecessors_eq_neighbours]
  exact ⟨wellFormed.neighbours_of_not_mem unknown, wellFormed.neighbours_of_not_mem unknown⟩

/-- Inserting a vertex tells where it stands, be it new or not. -/
theorem idxOf?_insertVertex (label : V) :
    (graph.insertVertex label).2.vertices.toList.idxOf? label =
      some (graph.insertVertex label).1 := by
  have grown := wellFormed.insertVertex label
  have placed := wellFormed.getElem?_insertVertex_self label
  obtain ⟨bound, found⟩ := Array.getElem?_eq_some_iff.mp placed
  refine List.idxOf?_eq_some_iff.mpr ⟨bound, found, fun earlier before same => ?_⟩
  -- A label stands in one place only.
  have other := Array.getElem?_eq_some_iff.mpr ⟨Nat.lt_trans before bound, same⟩
  exact Nat.ne_of_lt before (grown.position_unique other placed)

end WellFormed

/-- All that a graph answers is told by the log that has built it. Its vertices are the labels that
the log mentions, in the order of their first mention; between two of them there is the sign that
the log gives to their edge. What a vertex leads to and what leads to it are the targets and the
sources of the inserted edges, each where it was inserted first, and a label that is no vertex has
neither. The edges are listed vertex by vertex. And to insert a vertex is to be told where it stands
in the graph with this insertion. -/
theorem answers_ofInsertions (log : List (Insertion V)) :
    let graph := ofInsertions log
    graph.vertices.toList = (log.flatMap Insertion.labels).eraseDups ∧
    (∀ u v, graph.polarity? u v = insertedSign? log u v) ∧
    (∀ u, graph.successors u = (log.flatMap (Insertion.targetsFrom u)).eraseDups) ∧
    (∀ v, graph.predecessors v = (log.flatMap (Insertion.sourcesInto v)).eraseDups) ∧
    (∀ label ∉ graph.vertices, graph.successors label = [] ∧ graph.predecessors label = []) ∧
    (∀ u, graph.successorEdges u = (graph.successors u).filterMap fun next =>
      (graph.polarity? u next).map fun sign => (next, sign)) ∧
    (graph.edges = graph.vertices.toList.flatMap fun source =>
      (graph.successorEdges source).map fun next => ⟨source, next.1, next.2⟩) ∧
    ∀ label, (graph.insertVertex label).2 = ofInsertions (log ++ [.vertex label]) ∧
      (graph.insertVertex label).2.vertices.toList.idxOf? label =
        some (graph.insertVertex label).1 := by
  intro graph
  have wellFormed : graph.WellFormed := wellFormed_ofInsertions log
  refine ⟨vertices_ofInsertions log, polarity?_ofInsertions log, successors_ofInsertions log,
    predecessors_ofInsertions log, fun label => wellFormed.neighbours_of_unknown,
    wellFormed.successorEdges_eq, wellFormed.edges_eq, fun label => ⟨?_, ?_⟩⟩
  · exact (ofInsertions_concat log (.vertex label)).symm
  · exact wellFormed.idxOf?_insertVertex label

end Graph

end DatalogStrata
