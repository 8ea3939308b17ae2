import DatalogStrata.Graph.Basic
import Mathlib.Data.Finset.Card

/-!
# The recursive search for components

Tarjan's search as it is told in textbooks. A call for a vertex numbers it, follows its edges in
order and then closes a component if the low link of the vertex is still its own number. An edge to
a vertex without a number is followed by a call of its own, and the low link of the target is
handed on when the call returns; an edge to a vertex on the stack hands on its number. There are no
positions here and no path: vertices are their labels, and what is asked of the graph is only which
vertices it has and to which others they lead.

Every call enters a vertex, so the vertices that have not been entered bound the depth of the calls.
This is why a call comes with the proof that it has left fewer of them.

## Main definitions

* `Descent` — the state of the recursive search
* `Descent.connect`, `Descent.follow` — a call, and the edges that it follows
* `Graph.recursiveComponents` — the components in the order in which they are closed

## Main results

* `Descent.connect_eq`, `Descent.follow_new`, `Descent.follow_old` — the calls, equation by equation
-/

namespace DatalogStrata

/-- The state of the recursive search. -/
structure Descent (V : Type) where
  /-- The number of each vertex that has been entered. -/
  number : V → Option Nat
  lowLink : V → Nat
  /-- Entered vertices of components still open, the latest first. -/
  stack : List V
  /-- How many vertices have been entered. -/
  entered : Nat
  /-- The completed components, each from the latest entered vertex to the first. -/
  components : List (List V)

namespace Descent

variable {V : Type}

/-- Before anything has been entered. -/
def start : Descent V :=
  ⟨fun _ => none, fun _ => 0, [], 0, []⟩

variable [DecidableEq V]

/-- Number a vertex and put it on the stack. -/
def enter (descent : Descent V) (vertex : V) : Descent V where
  number := Function.update descent.number vertex (some descent.entered)
  lowLink := Function.update descent.lowLink vertex descent.entered
  stack := vertex :: descent.stack
  entered := descent.entered + 1
  components := descent.components

/-- Bring the low link of a vertex down to a bound. -/
def lower (descent : Descent V) (vertex : V) (bound : Nat) : Descent V :=
  { descent with
    lowLink := Function.update descent.lowLink vertex (min (descent.lowLink vertex) bound) }

/-- Take a component off the stack, down to the vertex that closes it. -/
def close (descent : Descent V) (vertex : V) : Descent V :=
  { descent with
    stack := (descent.stack.dropWhile (· ≠ vertex)).tail
    components := descent.components ++ [descent.stack.takeWhile (· ≠ vertex) ++ [vertex]] }

/-- Leave a vertex; it closes a component when its low link is its own number. -/
def leave (descent : Descent V) (vertex : V) : Descent V :=
  if descent.number vertex = some (descent.lowLink vertex) then descent.close vertex else descent

/-- Learn from an edge to a vertex that has been entered; what is off the stack tells nothing. -/
def learn (descent : Descent V) (vertex target : V) : Descent V :=
  match descent.number target with
  | some number => if target ∈ descent.stack then descent.lower vertex number else descent
  | none => descent

/-- A vertex of the graph that has not been entered. -/
def New (graph : Graph V) (descent : Descent V) (vertex : V) : Prop :=
  vertex ∈ graph.vertices ∧ descent.number vertex = none

instance (graph : Graph V) (descent : Descent V) (vertex : V) :
    Decidable (descent.New graph vertex) :=
  inferInstanceAs (Decidable (_ ∧ _))

/-- How many vertices of the graph have not been entered. -/
def unentered (graph : Graph V) (descent : Descent V) : Nat :=
  (graph.vertices.toList.toFinset.filter fun vertex => descent.number vertex = none).card

variable {graph : Graph V} {descent : Descent V} {vertex target : V} {rest : List V}

theorem number_enter (other : V) : (descent.enter vertex).number other =
    if other = vertex then some descent.entered else descent.number other :=
  Function.update_apply _ _ _ _

theorem lowLink_enter (other : V) : (descent.enter vertex).lowLink other =
    if other = vertex then descent.entered else descent.lowLink other :=
  Function.update_apply _ _ _ _

theorem lowLink_lower (bound : Nat) (other : V) : (descent.lower vertex bound).lowLink other =
    if other = vertex then min (descent.lowLink vertex) bound else descent.lowLink other :=
  Function.update_apply _ _ _ _

@[simp] theorem number_lower (bound : Nat) : (descent.lower vertex bound).number = descent.number :=
  rfl

@[simp] theorem number_leave : (descent.leave vertex).number = descent.number := by
  unfold leave
  split <;> rfl

@[simp] theorem number_learn : (descent.learn vertex target).number = descent.number := by
  unfold learn
  split
  · split <;> rfl
  · rfl

theorem unentered_congr {other : Descent V} (same : other.number = descent.number) :
    other.unentered graph = descent.unentered graph := by
  rw [unentered, unentered, same]

/-- Entering a vertex leaves fewer to be entered. -/
theorem unentered_enter (new : descent.New graph vertex) :
    (descent.enter vertex).unentered graph < descent.unentered graph := by
  refine Finset.card_lt_card ((Finset.ssubset_iff_of_subset ?_).mpr ⟨vertex, ?_, ?_⟩)
  · intro other inside
    rw [Finset.mem_filter, number_enter] at inside
    rw [Finset.mem_filter]
    refine ⟨inside.1, ?_⟩
    by_cases same : other = vertex
    · exact same ▸ new.2
    · exact (if_neg same).symm.trans inside.2
  · rw [Finset.mem_filter, List.mem_toFinset, Array.mem_toList_iff]
    exact new
  · rw [Finset.mem_filter, number_enter, if_pos rfl]
    exact fun inside => Option.some_ne_none _ inside.2

mutual

/-- The call for a vertex: enter it, follow its edges and leave it. -/
def connect (graph : Graph V) (descent : Descent V) (vertex : V)
    (new : descent.New graph vertex) :
    { after : Descent V // after.unentered graph < descent.unentered graph } :=
  let followed := follow graph vertex (graph.successors vertex) (descent.enter vertex)
  ⟨followed.1.leave vertex,
    (unentered_congr number_leave).trans_lt (followed.2.trans_lt (unentered_enter new))⟩
termination_by (descent.unentered graph, 0)
decreasing_by exact .left _ _ (unentered_enter new)

/-- Follow the edges of a vertex to some targets, one after the other. -/
def follow (graph : Graph V) (vertex : V) (targets : List V) (descent : Descent V) :
    { after : Descent V // after.unentered graph ≤ descent.unentered graph } :=
  match targets with
  | [] => ⟨descent, Nat.le_refl _⟩
  | target :: rest =>
    if new : descent.New graph target then
      match connect graph descent target new with
      | ⟨child, fewer⟩ =>
        let after := follow graph vertex rest (child.lower vertex (child.lowLink target))
        ⟨after.1, after.2.trans ((unentered_congr (number_lower _)).trans_le fewer.le)⟩
    else
      let after := follow graph vertex rest (descent.learn vertex target)
      ⟨after.1, after.2.trans (unentered_congr number_learn).le⟩
termination_by (descent.unentered graph, targets.length + 1)
decreasing_by
  -- Nothing has been entered yet when the call is made; it enters its vertex itself.
  · exact .right _ (Nat.succ_pos _)
  -- The call has entered vertices, whatever it has followed.
  · exact .left _ _ ((unentered_congr (number_lower _)).trans_lt fewer)
  -- No call is made, and one edge less is left.
  · rw [unentered_congr number_learn]
    exact .right _ (Nat.lt_succ_self _)

end

theorem connect_eq (new : descent.New graph vertex) : (connect graph descent vertex new).1 =
    (follow graph vertex (graph.successors vertex) (descent.enter vertex)).1.leave vertex := by
  rw [connect]

theorem follow_nil : (follow graph vertex [] descent).1 = descent := by
  rw [follow]

/-- A call is made for a target that has not been entered, and its low link is handed on. -/
theorem follow_new (new : descent.New graph target) :
    (follow graph vertex (target :: rest) descent).1 =
      (follow graph vertex rest ((connect graph descent target new).1.lower vertex
        ((connect graph descent target new).1.lowLink target))).1 := by
  rw [follow, dif_pos new]

theorem follow_old (old : ¬ descent.New graph target) :
    (follow graph vertex (target :: rest) descent).1 =
      (follow graph vertex rest (descent.learn vertex target)).1 := by
  rw [follow, dif_neg old]

/-- Make a call for a root, unless it has been entered. -/
def visit (graph : Graph V) (descent : Descent V) (root : V) : Descent V :=
  if new : descent.New graph root then (connect graph descent root new).1 else descent

end Descent

/-- The components of a graph as the recursive search finds them, in the order in which they are
closed. Roots are tried in vertex order. -/
def Graph.recursiveComponents {V : Type} [DecidableEq V] (graph : Graph V) : List (List V) :=
  (graph.vertices.toList.foldl (Descent.visit graph) Descent.start).components

end DatalogStrata
