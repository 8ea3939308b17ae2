import DatalogStrata.Component.Search
import DatalogStrata.Proofs.Graph.Reachability

/-!
# The invariant of the search

What the search knows at any time is said in two parts. The first does not look at the path: the
stack holds the entered vertices of open components in the order of their numbers, low links are
numbers of vertices on the stack that are reached, and the components completed so far are
strongly connected components from which no edge leads out to anything open.

The second part follows the path. Each frame owns the vertices that lie above it on the stack, up
to the next frame: they have been left, are reached from the frame, and all that they and the frame
have looked at is either closed or has a number that the frame's low link is not above. So when a
frame's low link is its own number, nothing above it leads below it.

## Main definitions

* `Search.numberOf`, `Search.Entered`, `Search.Closed` — the state, vertex by vertex
* `Search.Sound` — the part of the invariant that does not look at the path
* `Search.Known`, `Search.Segment`, `Search.Layout` — the part that follows the path
* `Search.Invariant` — both parts

## Main results

* `Search.invariant_start` — the invariant holds before anything has been entered
* `Search.Layout.transport` — what a change leaves alone stays as it is
-/

namespace DatalogStrata

namespace Search

variable {V : Type} {graph : Graph V} {search other : Search} {u v w : Nat}

/-- The number of a vertex; zero before it has been entered. -/
def numberOf (search : Search) (vertex : Nat) : Nat :=
  (search.number[vertex]?.join).getD 0

/-- A vertex has been entered. -/
def Entered (search : Search) (vertex : Nat) : Prop :=
  ∃ number, search.number[vertex]? = some (some number)

/-- A vertex lies in a completed component. -/
def Closed (search : Search) (vertex : Nat) : Prop :=
  ∃ component ∈ search.components, vertex ∈ component

theorem numberOf_eq {number : Nat} (found : search.number[v]? = some (some number)) :
    search.numberOf v = number := by
  rw [numberOf, found]
  rfl

/-- What holds of the stack, the low links and the completed components, whatever the path is. -/
structure Sound (graph : Graph V) (search : Search) : Prop where
  number_size : search.number.size = graph.vertices.size
  lowLink_size : search.lowLink.size = graph.vertices.size
  onStack_size : search.onStack.size = graph.vertices.size
  isOnStack_iff : ∀ {v}, search.isOnStack v = true ↔ v ∈ search.stack
  /-- The latest entered vertex is on top. -/
  descending : search.stack.Pairwise fun a b => search.numberOf b < search.numberOf a
  numberOf_lt : ∀ {v}, v ∈ search.stack → search.numberOf v < search.entered
  entered_iff : ∀ {v}, search.Entered v ↔ v ∈ search.stack ∨ search.Closed v
  not_closed : ∀ {v}, v ∈ search.stack → ¬ search.Closed v
  closed_targets : ∀ {v w}, search.Closed v → w ∈ graph.targets v → search.Closed w
  low_le : ∀ {v}, v ∈ search.stack → search.lowLinkOf v ≤ search.numberOf v
  low_reached : ∀ {v}, v ∈ search.stack →
    ∃ w ∈ search.stack, search.numberOf w = search.lowLinkOf v ∧ graph.ReachesAt v w
  component_nonempty : ∀ {component}, component ∈ search.components → component ≠ []
  component_nodup : ∀ {component}, component ∈ search.components → component.Nodup
  /-- A completed component is one of mutual reachability. -/
  component_iff : ∀ {component v w}, component ∈ search.components → v ∈ component →
    (w ∈ component ↔ graph.ReachesAt v w ∧ graph.ReachesAt w v)
  /-- No component reaches one that was completed later. -/
  ordered : search.components.toList.Pairwise fun earlier later =>
    ∀ v ∈ earlier, ∀ w ∈ later, ¬ graph.ReachesAt v w

/-- A vertex is closed, or open with a number that is not below a bound. -/
def Known (search : Search) (bound vertex : Nat) : Prop :=
  search.Closed vertex ∨ (vertex ∈ search.stack ∧ bound ≤ search.numberOf vertex)

theorem Known.mono {bound smaller : Nat} (known : search.Known bound v)
    (below : smaller ≤ bound) : search.Known smaller v :=
  known.imp id fun inside => ⟨inside.1, Nat.le_trans below inside.2⟩

/-- What a frame and the vertices above it on the stack have learned. -/
structure Segment (graph : Graph V) (search : Search) (frame : Frame) (above : List Nat) :
    Prop where
  scanned : ∀ {slot w}, slot < frame.next → graph.target? frame.vertex slot = some w →
    search.Known (search.lowLinkOf frame.vertex) w
  reached : ∀ {v}, v ∈ above → graph.ReachesAt frame.vertex v
  low_le : ∀ {v}, v ∈ above → search.lowLinkOf frame.vertex ≤ search.lowLinkOf v
  /-- A vertex that was left without closing its component reaches an earlier one. -/
  low_lt : ∀ {v}, v ∈ above → search.lowLinkOf v < search.numberOf v
  above_scanned : ∀ {v w}, v ∈ above → w ∈ graph.targets v →
    search.Known (search.lowLinkOf frame.vertex) w

/-- The stack falls into one segment for each frame, and each frame was entered along an edge from
the one below it. -/
inductive Layout (graph : Graph V) (search : Search) : List Frame → List Nat → Prop where
  | nil : Layout graph search [] []
  | cons {frame : Frame} {path : List Frame} {above below : List Nat}
      (segment : Segment graph search frame above)
      (entered : ∀ parent ∈ path.head?, frame.vertex ∈ graph.targets parent.vertex)
      (rest : Layout graph search path below) :
      Layout graph search (frame :: path) (above ++ frame.vertex :: below)

/-- The invariant of the search. -/
structure Invariant (graph : Graph V) (search : Search) : Prop where
  sound : search.Sound graph
  layout : Layout graph search search.frames search.stack

/-! ## Consequences -/

namespace Sound

theorem stack_nodup (sound : search.Sound graph) : search.stack.Nodup := by
  refine sound.descending.imp ?_
  rintro a b smaller rfl
  exact Nat.lt_irrefl _ smaller

theorem stack_lt (sound : search.Sound graph) (member : v ∈ search.stack) :
    v < graph.vertices.size := by
  obtain ⟨number, found⟩ := sound.entered_iff.mpr (Or.inl member)
  rw [← sound.number_size]
  exact (Array.getElem?_eq_some_iff.mp found).1

theorem closed_lt (sound : search.Sound graph) (closed : search.Closed v) :
    v < graph.vertices.size := by
  obtain ⟨number, found⟩ := sound.entered_iff.mpr (Or.inr closed)
  rw [← sound.number_size]
  exact (Array.getElem?_eq_some_iff.mp found).1

theorem closed_reaches (sound : search.Sound graph) (closed : search.Closed v)
    (reach : graph.ReachesAt v w) : search.Closed w := by
  induction reach with
  | refl => exact closed
  | tail _ leads ih => exact sound.closed_targets ih leads

end Sound

theorem Layout.vertex_mem {path : List Frame} {stack : List Nat}
    (layout : Layout graph search path stack) : ∀ v ∈ path.map Frame.vertex, v ∈ stack := by
  induction layout with
  | nil => exact fun _ member => member
  | cons _ _ _ ih =>
    intro v member
    rcases List.mem_cons.mp member with rfl | later
    · exact List.mem_append_right _ List.mem_cons_self
    · exact List.mem_append_right _ (List.mem_cons_of_mem _ (ih v later))

/-- A segment outlasts a change that lowers nothing but the low link of its frame and forgets
nothing that is known. -/
theorem Segment.transport {frame : Frame} {above : List Nat}
    (segment : Segment graph search frame above)
    (own : other.lowLinkOf frame.vertex ≤ search.lowLinkOf frame.vertex)
    (low : ∀ v ∈ above, other.lowLinkOf v = search.lowLinkOf v)
    (number : ∀ v ∈ above, other.numberOf v = search.numberOf v)
    (known : ∀ bound v, search.Known bound v → other.Known bound v) :
    Segment graph other frame above where
  scanned before target := (known _ _ (segment.scanned before target)).mono own
  reached := segment.reached
  low_le member := low _ member ▸ Nat.le_trans own (segment.low_le member)
  low_lt member := by
    rw [low _ member, number _ member]
    exact segment.low_lt member
  above_scanned member leads := (known _ _ (segment.above_scanned member leads)).mono own

/-- A change that lowers nothing but low links of frames, and forgets nothing that is known, leaves
the segments of a part of the stack as they are. -/
theorem Layout.transport {path : List Frame} {stack : List Nat}
    (layout : Layout graph search path stack) (distinct : stack.Nodup)
    (lower : ∀ v ∈ stack, other.lowLinkOf v ≤ search.lowLinkOf v)
    (kept : ∀ v ∈ stack, v ∉ path.map Frame.vertex → other.lowLinkOf v = search.lowLinkOf v)
    (number : ∀ v ∈ stack, other.numberOf v = search.numberOf v)
    (known : ∀ bound v, search.Known bound v → other.Known bound v) :
    Layout graph other path stack := by
  induction layout with
  | nil => exact .nil
  | @cons frame path above below segment entered rest ih =>
    rw [List.nodup_append, List.nodup_cons] at distinct
    obtain ⟨-, ⟨notBelow, distinctBelow⟩, apart⟩ := distinct
    have inAbove {v : Nat} (member : v ∈ above) : v ∈ above ++ frame.vertex :: below :=
      List.mem_append_left _ member
    have inBelow {v : Nat} (member : v ∈ below) : v ∈ above ++ frame.vertex :: below :=
      List.mem_append_right _ (List.mem_cons_of_mem _ member)
    refine .cons (segment.transport ?_ ?_ ?_ known) entered (ih distinctBelow ?_ ?_ ?_)
    · exact lower _ (List.mem_append_right _ List.mem_cons_self)
    · intro v member
      refine kept v (inAbove member) fun frames => ?_
      -- A vertex above the frame is not the frame's, and those of other frames lie below.
      rcases List.mem_cons.mp frames with rfl | later
      · exact apart _ member _ List.mem_cons_self rfl
      · exact apart v member v (List.mem_cons_of_mem _ (rest.vertex_mem v later)) rfl
    · exact fun v member => number v (inAbove member)
    · exact fun v member => lower v (inBelow member)
    · intro v member missing
      refine kept v (inBelow member) fun frames => ?_
      -- The frame's own vertex stands above, so only the frames below are left.
      rcases List.mem_cons.mp frames with rfl | later
      · exact notBelow member
      · exact missing later
    · exact fun v member => number v (inBelow member)

/-- Before anything has been entered nothing is on the stack and nothing is closed. -/
theorem invariant_start (graph : Graph V) : (start graph.vertexCount).Invariant graph := by
  have notEntered (v : Nat) : ¬ (start graph.vertexCount).Entered v := by
    rintro ⟨number, found⟩
    simp [start, Array.getElem?_replicate] at found
  have notClosed (v : Nat) : ¬ (start graph.vertexCount).Closed v := by simp [Closed, start]
  refine ⟨?_, .nil⟩
  exact
    { number_size := Array.size_replicate
      lowLink_size := Array.size_replicate
      onStack_size := Array.size_replicate
      isOnStack_iff := by
        intro v
        simp only [start, isOnStack, Array.getElem?_replicate, List.not_mem_nil, iff_false]
        split <;> simp
      descending := List.Pairwise.nil
      numberOf_lt := by simp [start]
      entered_iff := iff_of_false (notEntered _) fun either =>
        either.elim List.not_mem_nil (notClosed _)
      not_closed := fun _ => notClosed _
      closed_targets := fun closed => absurd closed (notClosed _)
      low_le := by simp [start]
      low_reached := by simp [start]
      component_nonempty := by simp [start]
      component_nodup := by simp [start]
      component_iff := by simp [start]
      ordered := by simp [start] }

end Search

end DatalogStrata
