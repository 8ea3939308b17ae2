import DatalogStrata.Declaration
import DatalogStrata.Proofs.Component.Watch
import Mathlib.Data.List.Chain
import Mathlib.Logic.Function.Iterate

/-!
# At the head of the loop

Below each root the search turns one loop until its path is empty. Each turn keeps the invariant of
the search, so the invariant holds at the head of the loop, below whichever root and after however
many turns. Read off from it, it says this: the path runs through the stack from top to bottom and
each of its steps is an edge; what has been entered is on the stack or in a completed component, and
from completed components no edge leads out; and low links name vertices on the stack that are
reached.

## Main definitions

* `Search.beforeRoot`, `Search.atHead` — the search before a root is tried, and at the head of the
  loop below it

## Main results

* `Search.Layout.vertices_sublist`, `Search.Layout.isChain` — how the path lies in the stack
* `Search.Invariant.atHead` — the invariant holds at every head of the loop
* `Search.exists_turns_eq_drain` — the loop below a root ends
* `Search.holds_at_loop_head` — what the tables of the search say at the head of the loop
-/

namespace DatalogStrata

namespace Search

variable {V : Type} {graph : Graph V} {search : Search} {path : List Frame} {stack : List Nat}
  {root v w : Nat}

/-! ## The path in the stack -/

/-- The vertices of a path stand on the stack in the order of the path. -/
theorem Layout.vertices_sublist (layout : Layout graph search path stack) :
    (path.map Frame.vertex).Sublist stack := by
  induction layout with
  | nil => exact List.Sublist.refl []
  | @cons frame path above below _ _ _ ih =>
    -- What lies above the frame's vertex is left out, the vertex itself is kept.
    rw [List.map_cons]
    exact (ih.cons_cons frame.vertex).trans (List.sublist_append_right above _)

/-- An edge leads to each frame of a path from the one below it. -/
theorem Layout.isChain (layout : Layout graph search path stack) :
    path.IsChain fun upper lower => upper.vertex ∈ graph.targets lower.vertex := by
  induction layout with
  | nil => exact List.IsChain.nil
  | cons _ entered _ ih => exact List.isChain_cons.mpr ⟨entered, ih⟩

/-! ## Turns of the loop -/

/-- The search when all roots before a given one have been tried. -/
def beforeRoot (graph : Graph V) (root : Nat) : Search :=
  (List.range root).foldl (visit graph) (start graph.vertexCount)

/-- The search at the head of the loop below a root, after so many turns. Once the path is empty
there is nothing left to turn for and the search stays as it is. -/
def atHead (graph : Graph V) (root turns : Nat) : Search :=
  (step graph)^[turns] ((beforeRoot graph root).enter root)

theorem beforeRoot_succ (graph : Graph V) (root : Nat) :
    beforeRoot graph (root + 1) = visit graph (beforeRoot graph root) root := by
  rw [beforeRoot, List.range_succ, List.foldl_append]
  rfl

theorem atHead_succ (graph : Graph V) (root turns : Nat) :
    atHead graph root (turns + 1) = step graph (atHead graph root turns) :=
  Function.iterate_succ_apply' (step graph) turns _

/-- When a root is tried the invariant holds and the path is empty. -/
theorem invariant_beforeRoot (wellFormed : graph.WellFormed) (root : Nat) :
    (beforeRoot graph root).Invariant graph ∧ (beforeRoot graph root).frames = [] := by
  induction root with
  | zero => exact ⟨invariant_start graph, rfl⟩
  | succ root ih =>
    rw [beforeRoot_succ]
    exact ih.1.visit ih.2 wellFormed root

/-- The invariant holds at every head of the loop. -/
theorem Invariant.atHead (wellFormed : graph.WellFormed)
    (new : (beforeRoot graph root).number[root]? = some none) (turns : Nat) :
    (atHead graph root turns).Invariant graph := by
  induction turns with
  | zero =>
    obtain ⟨inv, finished⟩ := invariant_beforeRoot wellFormed root
    exact inv.enter_root finished new
  | succ turns ih =>
    rw [atHead_succ]
    exact ih.step wellFormed

/-- After some number of turns there is nothing left to turn for. -/
theorem exists_turns_eq_drain (graph : Graph V) (search : Search) :
    ∃ turns, (step graph)^[turns] search = drain graph search := by
  induction search using drain.induct graph with
  | case1 search finished =>
    refine ⟨0, ?_⟩
    rw [drain, if_pos finished]
    rfl
  | case2 search running ih =>
    obtain ⟨turns, ended⟩ := ih
    refine ⟨turns + 1, ?_⟩
    rw [Function.iterate_succ_apply, ended, drain.eq_def graph search, if_neg running]

/-! ## What the tables say -/

namespace Sound

variable (sound : search.Sound graph)
include sound

/-- A vertex is marked exactly when it is on the stack. -/
theorem getElem?_onStack_iff : search.onStack[v]? = some true ↔ v ∈ search.stack := by
  rw [← sound.isOnStack_iff, isOnStack]
  cases search.onStack[v]? with
  | none => simp
  | some marked => simp

/-- What has been entered and is not on the stack is in a completed component. -/
theorem entered_off_stack_iff : search.Entered v ∧ v ∉ search.stack ↔ search.Closed v := by
  rw [sound.entered_iff]
  constructor
  · intro off
    exact off.1.resolve_left off.2
  · intro closed
    exact ⟨Or.inr closed, fun inside => sound.not_closed inside closed⟩

/-- The low link of a vertex on the stack is the number of one that it reaches. -/
theorem exists_low (inside : v ∈ search.stack) :
    ∃ number low, search.number[v]? = some (some number) ∧ search.lowLink[v]? = some low ∧
      low ≤ number ∧
        ∃ w ∈ search.stack, search.number[w]? = some (some low) ∧ graph.ReachesAt v w := by
  have low := sound.fits.getElem?_lowLink (sound.stack_lt inside)
  obtain ⟨number, numbered⟩ := sound.entered_iff.mpr (Or.inl inside)
  obtain ⟨w, onStack, least, reach⟩ := sound.low_reached inside
  obtain ⟨reached, numberedToo⟩ := sound.entered_iff.mpr (Or.inl onStack)
  rw [numberOf_eq numberedToo] at least
  refine ⟨number, search.lowLinkOf v, numbered, low, ?_, w, onStack, least ▸ numberedToo, reach⟩
  rw [← numberOf_eq numbered]
  exact sound.low_le inside

end Sound

/-- Whatever has been inserted, this holds at the head of the loop below every root that has not
been entered when it is tried, after any number of turns. Marked are exactly the vertices on the
stack, where each stands once, above those with smaller numbers. The path runs through the stack,
and each vertex on it is the target of an edge from the one below it. What has been entered and is
not on the stack is what lies in completed components, and no edge leads out of these. The low link
of a vertex on the stack is not above its number and is the number of a vertex on the stack that it
reaches. At last the path is empty, and from there the search goes on to the next root. -/
theorem holds_at_loop_head [DecidableEq V] (log : List (Insertion V)) (root turns : Nat)
    (new : (beforeRoot (Graph.ofInsertions log) root).number[root]? = some none) :
    let graph := Graph.ofInsertions log
    let search := atHead graph root turns
    (∀ v, search.onStack[v]? = some true ↔ v ∈ search.stack) ∧
    search.stack.Nodup ∧
    search.stack.Pairwise (fun upper lower => search.numberOf lower < search.numberOf upper) ∧
    (search.frames.map Frame.vertex).Sublist search.stack ∧
    search.frames.IsChain (fun upper lower => upper.vertex ∈ graph.targets lower.vertex) ∧
    (∀ v, search.Entered v ∧ v ∉ search.stack ↔ ∃ component ∈ search.components, v ∈ component) ∧
    (∀ component ∈ search.components, ∀ v ∈ component, ∀ w ∈ graph.targets v,
      ∃ other ∈ search.components, w ∈ other) ∧
    (∀ v ∈ search.stack, ∃ number low, search.number[v]? = some (some number) ∧
      search.lowLink[v]? = some low ∧ low ≤ number ∧
        ∃ w ∈ search.stack, search.number[w]? = some (some low) ∧ graph.ReachesAt v w) ∧
    ∃ last, (atHead graph root last).frames = [] ∧
      beforeRoot graph (root + 1) = atHead graph root last := by
  intro graph search
  have wellFormed : graph.WellFormed := Graph.wellFormed_ofInsertions log
  have inv : search.Invariant graph := .atHead wellFormed new turns
  have sound := inv.sound
  refine ⟨fun v => sound.getElem?_onStack_iff, sound.stack_nodup, sound.descending,
    inv.layout.vertices_sublist, inv.layout.isChain, fun v => sound.entered_off_stack_iff, ?_,
    fun v inside => sound.exists_low inside, ?_⟩
  · intro component member v inside w leads
    exact sound.closed_targets ⟨component, member, inside⟩ leads
  · obtain ⟨last, ended⟩ := exists_turns_eq_drain graph ((beforeRoot graph root).enter root)
    have next : beforeRoot graph (root + 1) = atHead graph root last := by
      rw [beforeRoot_succ, visit, if_pos new]
      exact ended.symm
    refine ⟨last, ?_, next⟩
    rw [← next]
    exact (invariant_beforeRoot wellFormed (root + 1)).2

/-- A relation that leads to a leaf and lies on a cycle of three, which has an edge to the leaf as
well. -/
def cycleOverLeaf : List (Insertion RelationId) :=
  [.edge ⟨⟨0⟩, ⟨1⟩, .positive⟩, .edge ⟨⟨0⟩, ⟨2⟩, .negative⟩, .edge ⟨⟨2⟩, ⟨3⟩, .positive⟩,
    .edge ⟨⟨3⟩, ⟨1⟩, .positive⟩, .edge ⟨⟨3⟩, ⟨0⟩, .positive⟩]

/-- After seven turns the leaf is closed and the last vertex of the cycle has been left, but it is
still on the stack, and its low link names the root. -/
theorem cycleOverLeaf_low_link :
    let graph := Graph.ofInsertions cycleOverLeaf
    let search := atHead graph 0 7
    (beforeRoot graph 0).number[0]? = some none ∧ search.stack = [3, 2, 0] ∧
      search.frames.map Frame.vertex = [2, 0] ∧ search.components = #[[1]] ∧
        search.lowLink[3]? = some 0 ∧ graph.ReachesAt 3 0 := by
  intro graph search
  have new : (beforeRoot graph 0).number[0]? = some none := by decide
  have stack : search.stack = [3, 2, 0] := by decide
  have low : search.lowLink[3]? = some 0 := by decide
  obtain ⟨-, -, -, -, -, -, -, lows, -⟩ := holds_at_loop_head cycleOverLeaf 0 7 new
  obtain ⟨-, least, -, found, -, w, inside, numbered, reach⟩ := lows 3 (by decide)
  obtain rfl : 0 = least := Option.some_inj.mp (low.symm.trans found)
  -- Of the vertices on the stack only the root has the number that the low link names.
  have first : ∀ v ∈ [3, 2, 0], search.number[v]? = some (some 0) → v = 0 := by decide
  obtain rfl := first w (stack ▸ inside) numbered
  exact ⟨new, stack, by decide, by decide, low, reach⟩

end Search

end DatalogStrata
