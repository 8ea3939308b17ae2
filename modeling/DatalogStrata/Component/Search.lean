import DatalogStrata.Graph.Basic

/-!
# Depth-first search for components

The search numbers vertices in the order in which it enters them and keeps entered vertices on a
stack until their component is complete. The low link of a vertex is the least number known to be
reachable from it through vertices still on the stack; a vertex whose low link is its own number
closes a component, made of everything above it on the stack.

The search does not recurse: the path from the root is a list of frames, each with the slot of the
edge to be followed next. Each step either enters a new vertex, passes over an edge, or leaves a
vertex, so the number of vertices not yet entered and of slots still to be looked at bounds what
is left to do.

Roots are tried in vertex order and edges in insertion order. Components are listed in the order
in which they are completed.

## Main definitions

* `Search`, `Search.step` — the state of the search and one step
* `Search.drain`, `Search.visit` — all steps below one root
* `Graph.components` — the components as lists of positions

## Main results

* `Search.step_decreases` — a step leaves less to do
-/

namespace DatalogStrata

/-- A vertex on the path of the search, and the slot of its edge to be followed next. -/
structure Frame where
  vertex : Nat
  next : Nat
deriving DecidableEq, Repr

/-- The state of the search, over positions of a graph. -/
structure Search where
  /-- For each vertex its number, once it has been entered. -/
  number : Array (Option Nat)
  lowLink : Array Nat
  onStack : Array Bool
  /-- Entered vertices of components still open, the latest first. -/
  stack : List Nat
  /-- How many vertices have been entered. -/
  entered : Nat
  /-- The path from the root, the innermost vertex first. -/
  frames : List Frame
  /-- The completed components, each from the latest entered vertex to the first. -/
  components : Array (List Nat)
deriving DecidableEq, Repr

namespace Search

/-- Before anything has been entered. -/
def start (size : Nat) : Search where
  number := Array.replicate size none
  lowLink := Array.replicate size 0
  onStack := Array.replicate size false
  stack := []
  entered := 0
  frames := []
  components := #[]

/-- The low link of a vertex. -/
def lowLinkOf (search : Search) (vertex : Nat) : Nat :=
  search.lowLink[vertex]?.getD 0

/-- Whether a vertex is on the stack. -/
def isOnStack (search : Search) (vertex : Nat) : Bool :=
  search.onStack[vertex]?.getD false

/-- Enter a vertex: number it, put it on the stack and make it the innermost frame. -/
def enter (search : Search) (vertex : Nat) : Search where
  number := search.number.setIfInBounds vertex (some search.entered)
  lowLink := search.lowLink.setIfInBounds vertex search.entered
  onStack := search.onStack.setIfInBounds vertex true
  stack := vertex :: search.stack
  entered := search.entered + 1
  frames := ⟨vertex, 0⟩ :: search.frames
  components := search.components

/-- Bring the low link of a vertex down to a bound. -/
def lower (search : Search) (vertex bound : Nat) : Search :=
  { search with lowLink := search.lowLink.modify vertex (min bound) }

/-- Split a stack after the first occurrence of a vertex. -/
def popThrough (vertex : Nat) : List Nat → List Nat × List Nat
  | [] => ([], [])
  | top :: rest =>
    if top = vertex then ([top], rest)
    else
      let (taken, left) := popThrough vertex rest
      (top :: taken, left)

/-- Take a component off the stack, down to the vertex that closes it. -/
def close (search : Search) (vertex : Nat) : Search :=
  let (taken, left) := popThrough vertex search.stack
  { search with
    onStack := taken.foldl (fun marks member => marks.setIfInBounds member false) search.onStack
    stack := left
    components := search.components.push taken }

/-- Follow an edge from a vertex: enter its target, or learn from a target on the stack. -/
def follow (search : Search) (vertex target : Nat) : Search :=
  match search.number[target]? with
  | some none => search.enter target
  -- A target off the stack lies in a finished component and tells nothing.
  | some (some number) => if search.isOnStack target then search.lower vertex number else search
  | none => search

/-- Hand the low link of a vertex that is being left to the vertex below it. -/
def report (search : Search) (vertex : Nat) : Search :=
  match search.frames with
  | below :: _ => search.lower below.vertex (search.lowLinkOf vertex)
  | [] => search

/-- Leave a vertex; it closes a component when its low link is its own number. -/
def leave (search : Search) (vertex : Nat) : Search :=
  if search.number[vertex]? = some (some (search.lowLinkOf vertex)) then
    search.close vertex
  else
    search

variable {V : Type}

/-- One step at the innermost frame. -/
def step (graph : Graph V) (search : Search) : Search :=
  match search.frames with
  | [] => search
  | frame :: path =>
    match graph.target? frame.vertex frame.next with
    | some target =>
      let advanced := { search with frames := { frame with next := frame.next + 1 } :: path }
      advanced.follow frame.vertex target
    | none =>
      -- The vertex below is told before the component is closed, while both are still open.
      let shortened := { search with frames := path }
      (shortened.report frame.vertex).leave frame.vertex

/-- How many vertices have not been entered. -/
def unentered (search : Search) : Nat :=
  search.number.countP Option.isNone

/-- How many frames are on a path, and how many slots are left at them. -/
def slotsLeft (graph : Graph V) : List Frame → Nat
  | [] => 0
  | frame :: path => (graph.arrows frame.vertex).size - frame.next + 1 + slotsLeft graph path

/-- What is left to do on the path of the search. -/
def pending (graph : Graph V) (search : Search) : Nat :=
  slotsLeft graph search.frames

theorem frames_lower (search : Search) (vertex bound : Nat) :
    (search.lower vertex bound).frames = search.frames := rfl

theorem number_lower (search : Search) (vertex bound : Nat) :
    (search.lower vertex bound).number = search.number := rfl

theorem frames_report (search : Search) (vertex : Nat) :
    (search.report vertex).frames = search.frames := by
  unfold report
  split <;> rfl

theorem number_report (search : Search) (vertex : Nat) :
    (search.report vertex).number = search.number := by
  unfold report
  split <;> rfl

theorem frames_leave (search : Search) (vertex : Nat) :
    (search.leave vertex).frames = search.frames := by
  unfold leave
  split <;> rfl

theorem number_leave (search : Search) (vertex : Nat) :
    (search.leave vertex).number = search.number := by
  unfold leave
  split <;> rfl

/-- Entering a vertex for the first time leaves one vertex less to enter. -/
theorem unentered_enter {search : Search} {vertex : Nat}
    (new : search.number[vertex]? = some none) :
    (search.enter vertex).unentered < search.unentered := by
  obtain ⟨bound, value⟩ := Array.getElem?_eq_some_iff.mp new
  have positive : 0 < search.number.countP Option.isNone := by
    rw [Array.countP_pos_iff]
    exact ⟨none, value ▸ Array.getElem_mem bound, rfl⟩
  simp only [unentered, enter, Array.setIfInBounds, bound, ↓reduceDIte, Array.countP_set, value,
    Option.isNone_none, Option.isNone_some]
  simp only [↓reduceIte, Bool.false_eq_true]
  omega

/-- A step on a path that is not empty leaves fewer vertices to enter, or as many vertices and
less on the path. -/
theorem step_decreases (graph : Graph V) {search : Search} (running : search.frames ≠ []) :
    (step graph search).unentered < search.unentered ∨
      (step graph search).unentered = search.unentered ∧
        (step graph search).pending graph < search.pending graph := by
  unfold step
  split
  · contradiction
  case h_2 frame path frames =>
    split
    case h_1 target found =>
      have slot : frame.next < (graph.arrows frame.vertex).size := by
        unfold Graph.target? at found
        grind
      simp only [follow]
      split
      -- A vertex is entered: there is one less to enter, however long the path has become.
      · left
        apply unentered_enter
        assumption
      -- An edge is passed over: its slot is gone and nothing is entered.
      · right
        split
        · refine ⟨rfl, ?_⟩
          simp only [pending, frames_lower, frames, slotsLeft]
          omega
        · refine ⟨rfl, ?_⟩
          simp only [pending, frames, slotsLeft]
          omega
      · right
        refine ⟨rfl, ?_⟩
        simp only [pending, frames, slotsLeft]
        omega
    -- A vertex is left: its frame is gone.
    case h_2 =>
      right
      constructor
      · simp only [unentered, number_leave, number_report]
      · simp only [pending, frames_leave, frames_report, frames, slotsLeft]
        omega

/-- Take steps until the path is empty. -/
def drain (graph : Graph V) (search : Search) : Search :=
  if search.frames = [] then search else drain graph (step graph search)
termination_by (search.unentered, search.pending graph)
decreasing_by
  rw [Prod.lex_def]
  exact step_decreases graph (by assumption)

/-- Search everything below a root, unless the root has been entered. -/
def visit (graph : Graph V) (search : Search) (root : Nat) : Search :=
  if search.number[root]? = some none then drain graph (search.enter root) else search

end Search

/-- The components of a graph as lists of positions, in the order of completion. -/
def Graph.components {V : Type} (graph : Graph V) : List (List Nat) :=
  ((List.range graph.vertexCount).foldl (Search.visit graph)
    (Search.start graph.vertexCount)).components.toList

end DatalogStrata
