import DatalogStrata.Graph.Basic

/-!
# Reading and growing a graph within its bounds

The tables of a graph are read at positions and slots that other tables name. Here this is done with
each place checked, so that it fails where a table has no place for what is asked of it.

## Main definitions

* `Graph.edges?`, `Graph.sign?`, `Graph.selfLoop?`, `Graph.insertEdge?` — the checked operations
-/

namespace DatalogStrata

namespace Graph

variable {V : Type}

/-- The edge of an arrow that leaves a position; both ends must be vertices. -/
def edgeAt? (graph : Graph V) (position : Nat) (arrow : Arrow) : Option (Edge V) := do
  let source ← graph.vertices[position]?
  let target ← graph.vertices[arrow.target]?
  return ⟨source, target, arrow.polarity⟩

/-- All edges, grouped by source. -/
def edges? (graph : Graph V) : Option (List (Edge V)) := do
  let rows ← graph.outgoing.toList.zipIdx.mapM fun (arrows, position) =>
    arrows.toList.mapM (graph.edgeAt? position)
  return rows.flatten

variable [DecidableEq V]

/-- The sign of the edge between two vertices, if there is one; it must stand in the slot that is
told for it. -/
def sign? (graph : Graph V) (source target : V) : Option (Option Polarity) :=
  match graph.position? source, graph.position? target with
  | some source, some target =>
    match graph.slot? source target with
    | some slot => do
      let arrows ← graph.outgoing[source]?
      let arrow ← arrows[slot]?
      return some arrow.polarity
    | none => some none
  | _, _ => some none

/-- Whether an edge leads from a vertex to itself. -/
def selfLoop? (graph : Graph V) (label : V) : Option Bool :=
  (graph.sign? label label).map Option.isSome

/-- Add an edge, and its ends if they are missing. A sign is merged into a slot that must be there,
and a new edge needs a row at both of its ends. -/
def insertEdge? (graph : Graph V) (edge : Edge V) : Option (Graph V) :=
  let (source, graph) := graph.insertVertex edge.source
  let (target, graph) := graph.insertVertex edge.target
  match graph.slot? source target with
  | some slot => do
    let arrows ← graph.outgoing[source]?
    guard (slot < arrows.size)
    return graph.mergeAt source slot edge.polarity
  | none => do
    guard (source < graph.outgoing.size ∧ target < graph.incoming.size)
    return graph.link source target edge.polarity

end Graph

end DatalogStrata
