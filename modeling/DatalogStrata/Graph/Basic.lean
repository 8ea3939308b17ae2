import DatalogStrata.Graph.Polarity

/-!
# Signed directed graphs

Vertices, the edges out of a vertex and the edges into a vertex are all kept in the order in which
they were first inserted, so every listing of a graph depends on nothing but its insertions.
Inside a graph a vertex is known by its position; from outside it is known by its label.

Two more tables say where to look: one gives the position of a label, the other the slot of the
edge between two positions. They repeat what the lists say, and every insertion keeps all tables
in step.

## Main definitions

* `Graph` — vertices with their outgoing and incoming edges
* `Graph.insertVertex`, `Graph.insertEdge` — the two ways for a graph to grow
* `Graph.successorEdges`, `Graph.predecessors`, `Graph.polarity?`, `Graph.edges` — its listings
* `Insertion`, `Graph.ofInsertions` — a log of insertions and the graph that it builds
* `Graph.listing` — a log that lists a graph
-/

namespace DatalogStrata

/-- An outgoing edge as its source holds it. -/
structure Arrow where
  /-- The position of the vertex it leads to. -/
  target : Nat
  polarity : Polarity
deriving DecidableEq, Repr

/-- An edge by the labels of its ends. -/
structure Edge (V : Type) where
  source : V
  target : V
  polarity : Polarity
deriving DecidableEq, Repr

/-- A directed graph with signed edges. -/
structure Graph (V : Type) where
  /-- The labels of the vertices, by position. -/
  vertices : Array V
  /-- The position under each label. -/
  places : List (V × Nat)
  /-- For each position the edges that leave it. -/
  outgoing : Array (Array Arrow)
  /-- For each position the positions of the sources of the edges that enter it. -/
  incoming : Array (Array Nat)
  /-- For each position the slots of the edges that leave it, under the positions to which they
  lead. -/
  slots : Array (List (Nat × Nat))
deriving DecidableEq, Repr

namespace Graph

variable {V : Type}

/-- The graph without vertices. -/
def empty : Graph V :=
  ⟨#[], [], #[], #[], #[]⟩

/-- The edges that leave a position. -/
def arrows (graph : Graph V) (position : Nat) : Array Arrow :=
  graph.outgoing[position]?.getD #[]

/-- The positions of the sources of the edges that enter a position. -/
def sources (graph : Graph V) (position : Nat) : Array Nat :=
  graph.incoming[position]?.getD #[]

/-- The slots of the edges that leave a position, under the positions to which they lead. -/
def slotsFrom (graph : Graph V) (position : Nat) : List (Nat × Nat) :=
  graph.slots[position]?.getD []

/-- The position to which the edge in a given slot leads. -/
def target? (graph : Graph V) (position slot : Nat) : Option Nat :=
  (graph.arrows position)[slot]?.map Arrow.target

/-- The slot of the edge between two positions. -/
def slot? (graph : Graph V) (source target : Nat) : Option Nat :=
  (graph.slotsFrom source).lookup target

/-- The number of vertices. -/
def vertexCount (graph : Graph V) : Nat :=
  graph.vertices.size

/-- Whether there are no vertices. -/
def isEmpty (graph : Graph V) : Bool :=
  graph.vertices.isEmpty

/-- An arrow by its label and sign. -/
def labelled? (graph : Graph V) (arrow : Arrow) : Option (V × Polarity) :=
  graph.vertices[arrow.target]?.map fun label => (label, arrow.polarity)

/-- All edges, grouped by source in vertex order. -/
def edges (graph : Graph V) : List (Edge V) :=
  (graph.vertices.toList.zip graph.outgoing.toList).flatMap fun (source, arrows) =>
    (arrows.toList.filterMap graph.labelled?).map fun (target, sign) => ⟨source, target, sign⟩

/-- The number of edges, counted by their slots. -/
def edgeCount (graph : Graph V) : Nat :=
  graph.slots.toList.foldl (fun count slots => count + slots.length) 0

variable [DecidableEq V]

/-- The position of a vertex. -/
def position? (graph : Graph V) (label : V) : Option Nat :=
  graph.places.lookup label

/-- Whether a label is a vertex. -/
def contains (graph : Graph V) (label : V) : Bool :=
  (graph.position? label).isSome

/-- Add a vertex without edges at the next position. -/
def addVertex (graph : Graph V) (label : V) : Graph V where
  vertices := graph.vertices.push label
  places := graph.places ++ [(label, graph.vertices.size)]
  outgoing := graph.outgoing.push #[]
  incoming := graph.incoming.push #[]
  slots := graph.slots.push []

/-- Add a vertex unless it is there, and tell its position. -/
def insertVertex (graph : Graph V) (label : V) : Nat × Graph V :=
  match graph.position? label with
  | some position => (position, graph)
  | none => (graph.vertices.size, graph.addVertex label)

/-- Merge a sign into the edge in a given slot. -/
def mergeAt (graph : Graph V) (source slot : Nat) (sign : Polarity) : Graph V :=
  let merged (arrow : Arrow) : Arrow := { arrow with polarity := arrow.polarity.merge sign }
  { graph with outgoing := graph.outgoing.modify source fun arrows => arrows.modify slot merged }

/-- Add an edge between two positions, in the next slot. -/
def link (graph : Graph V) (source target : Nat) (sign : Polarity) : Graph V :=
  { graph with
    outgoing := graph.outgoing.modify source fun arrows => arrows.push ⟨target, sign⟩
    incoming := graph.incoming.modify target fun sources => sources.push source
    slots := graph.slots.modify source fun slots =>
      slots ++ [(target, (graph.arrows source).size)] }

/-- Add an edge, and its ends if they are missing. An edge that is there keeps its place and takes
the merged sign. -/
def insertEdge (graph : Graph V) (edge : Edge V) : Graph V :=
  -- The source is added first, so it comes before a target that is new as well.
  let (source, graph) := graph.insertVertex edge.source
  let (target, graph) := graph.insertVertex edge.target
  match graph.slot? source target with
  | some slot => graph.mergeAt source slot edge.polarity
  | none => graph.link source target edge.polarity

/-- The edges out of a vertex, each by its target and sign; none for an unknown label. -/
def successorEdges (graph : Graph V) (label : V) : List (V × Polarity) :=
  match graph.position? label with
  | some position => (graph.arrows position).toList.filterMap graph.labelled?
  | none => []

/-- The targets of the edges out of a vertex. -/
def successors (graph : Graph V) (label : V) : List V :=
  (graph.successorEdges label).map Prod.fst

/-- The sources of the edges into a vertex; none for an unknown label. -/
def predecessors (graph : Graph V) (label : V) : List V :=
  match graph.position? label with
  | some position => (graph.sources position).toList.filterMap (graph.vertices[·]?)
  | none => []

/-- The sign of the edge between two vertices, if there is one. -/
def polarity? (graph : Graph V) (source target : V) : Option Polarity := do
  let source ← graph.position? source
  let target ← graph.position? target
  let slot ← graph.slot? source target
  return (← (graph.arrows source)[slot]?).polarity

/-- Whether an edge leads from a vertex to itself. -/
def hasSelfLoop (graph : Graph V) (label : V) : Bool :=
  (graph.polarity? label label).isSome

end Graph

/-- One way for a graph to grow. -/
inductive Insertion (V : Type) where
  | vertex (label : V)
  | edge (edge : Edge V)
deriving DecidableEq, Repr

namespace Graph

variable {V : Type} [DecidableEq V]

/-- Carry out an insertion. -/
def insert (graph : Graph V) : Insertion V → Graph V
  | .vertex label => (graph.insertVertex label).2
  | .edge edge => graph.insertEdge edge

/-- The graph that a log of insertions builds. -/
def ofInsertions (log : List (Insertion V)) : Graph V :=
  log.foldl insert empty

/-- The vertices and then the edges of a graph, as a log. -/
def listing (graph : Graph V) : List (Insertion V) :=
  graph.vertices.toList.map .vertex ++ graph.edges.map .edge

/-- The graph built from the listing of a graph. -/
def relisted (graph : Graph V) : Graph V :=
  ofInsertions graph.listing

end Graph

end DatalogStrata
