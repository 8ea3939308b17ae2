import DatalogStrata.Proofs.Component.Step

/-!
# What the search finds

Steps are taken until the path is empty, and roots are tried until every vertex has been entered.
With the path empty the stack is empty too, so at the end every vertex is closed, and what the
invariant says of completed components is said of all of them.

## Main results

* `Search.Invariant.drain`, `Search.Invariant.visit` — the invariant after all steps below a root
* `Graph.WellFormed.exists_component` — every position is in a component
* `Graph.WellFormed.mem_component_iff` — a component holds what a member reaches and is reached from
* `Graph.WellFormed.components_ordered` — no component reaches one that is completed later
-/

namespace DatalogStrata

namespace Search

variable {V : Type} {graph : Graph V} {search : Search} {v w : Nat}

/-! ## Entered vertices stay entered -/

theorem Entered.enter (entered : search.Entered v) (w : Nat) : (search.enter w).Entered v := by
  obtain ⟨number, found⟩ := entered
  have bound := (Array.getElem?_eq_some_iff.mp found).1
  rw [Entered, Search.enter, Array.getElem?_setIfInBounds]
  split
  · rename_i same
    exact ⟨search.entered, by rw [if_pos (same ▸ bound)]⟩
  · exact ⟨number, found⟩

theorem entered_of_number {other : Search} (same : other.number = search.number)
    (entered : search.Entered v) : other.Entered v := by
  rwa [Entered, same]

theorem Entered.follow (entered : search.Entered v) (u w : Nat) :
    (search.follow u w).Entered v := by
  unfold Search.follow
  split
  · exact entered.enter w
  · split
    · exact entered
    · exact entered
  · exact entered

theorem Entered.step (entered : search.Entered v) (graph : Graph V) :
    (step graph search).Entered v := by
  unfold Search.step
  split
  · exact entered
  · split
    · refine Entered.follow ?_ _ _
      exact entered_of_number rfl entered
    · exact entered_of_number ((number_leave _ _).trans (number_report _ _)) entered

theorem Entered.drain (entered : search.Entered v) (graph : Graph V) :
    (drain graph search).Entered v := by
  induction search using drain.induct graph with
  | case1 search finished => rwa [Search.drain, if_pos finished]
  | case2 search running ih =>
    rw [Search.drain, if_neg running]
    exact ih (entered.step graph)

/-! ## All steps below a root -/

/-- Draining keeps the invariant and empties the path. -/
theorem Invariant.drain (inv : search.Invariant graph) (wellFormed : graph.WellFormed) :
    (drain graph search).Invariant graph ∧ (drain graph search).frames = [] := by
  induction search using drain.induct graph with
  | case1 search finished =>
    rw [Search.drain, if_pos finished]
    exact ⟨inv, finished⟩
  | case2 search running ih =>
    rw [Search.drain, if_neg running]
    exact ih (inv.step wellFormed)

/-- With an empty path the stack is empty. -/
theorem Layout.stack_eq_nil {stack : List Nat} (layout : Layout graph search [] stack) :
    stack = [] := by
  cases layout
  rfl

/-- A root is entered with a path of its own. -/
theorem Invariant.enter_root (inv : search.Invariant graph) (finished : search.frames = [])
    (new : search.number[v]? = some none) : (search.enter v).Invariant graph := by
  have layout : Layout graph search [] search.stack := finished ▸ inv.layout
  refine ⟨inv.sound.enter new, ?_⟩
  have shape : (search.enter v).frames = [⟨v, 0⟩] := by rw [Search.enter, finished]
  rw [shape]
  exact .cons (Segment.fresh graph _ v) (by simp) (layout.enter inv.sound new)

theorem Invariant.visit (inv : search.Invariant graph) (finished : search.frames = [])
    (wellFormed : graph.WellFormed) (root : Nat) :
    (visit graph search root).Invariant graph ∧ (visit graph search root).frames = [] := by
  unfold Search.visit
  split
  case isTrue new => exact (inv.enter_root finished new).drain wellFormed
  case isFalse => exact ⟨inv, finished⟩

theorem Entered.visit (entered : search.Entered v) (graph : Graph V) (root : Nat) :
    (visit graph search root).Entered v := by
  unfold Search.visit
  split
  · exact (entered.enter root).drain graph
  · exact entered

/-- A root that has been visited has been entered. -/
theorem Sound.entered_visit (sound : search.Sound graph) (bound : v < graph.vertices.size) :
    (Search.visit graph search v).Entered v := by
  unfold Search.visit
  split
  case isTrue new =>
    exact ((sound.entered_enter bound).mpr (Or.inl rfl)).drain graph
  case isFalse old =>
    have inside : v < search.number.size := sound.number_size ▸ bound
    cases found : search.number[v] with
    | none => exact absurd ((Array.getElem?_eq_getElem inside).trans (congrArg some found)) old
    | some number => exact ⟨number, (Array.getElem?_eq_getElem inside).trans (congrArg some found)⟩

/-- Visiting roots one after the other keeps the invariant and enters them all. -/
theorem Invariant.visits (inv : search.Invariant graph) (finished : search.frames = [])
    (wellFormed : graph.WellFormed) (roots : List Nat)
    (bound : ∀ v ∈ roots, v < graph.vertices.size) :
    (roots.foldl (Search.visit graph) search).Invariant graph ∧
      (roots.foldl (Search.visit graph) search).frames = [] ∧
      ∀ v, v ∈ roots ∨ search.Entered v → (roots.foldl (Search.visit graph) search).Entered v := by
  induction roots generalizing search with
  | nil => exact ⟨inv, finished, fun v either => either.resolve_left List.not_mem_nil⟩
  | cons root rest ih =>
    obtain ⟨kept, empty⟩ := inv.visit finished wellFormed root
    obtain ⟨final, drained, entered⟩ :=
      ih kept empty fun v member => bound v (List.mem_cons_of_mem _ member)
    refine ⟨final, drained, ?_⟩
    -- What has been entered below earlier roots is still entered after the later ones.
    rintro v (member | old)
    · rcases List.mem_cons.mp member with rfl | later
      · exact entered v (Or.inr (inv.sound.entered_visit (bound v List.mem_cons_self)))
      · exact entered v (Or.inl later)
    · exact entered v (Or.inr (old.visit graph root))

end Search

namespace Graph

variable {V : Type} {graph : Graph V} {v w : Nat} {component : List Nat}

/-- The state of the search after all roots. -/
def searched (graph : Graph V) : Search :=
  (List.range graph.vertexCount).foldl (Search.visit graph) (Search.start graph.vertexCount)

theorem mem_components_iff :
    component ∈ graph.components ↔ component ∈ graph.searched.components :=
  Array.mem_toList_iff

namespace WellFormed

variable (wellFormed : graph.WellFormed)
include wellFormed

theorem sound_searched : graph.searched.Sound graph :=
  ((Search.invariant_start graph).visits rfl wellFormed _
    fun _ member => List.mem_range.mp member).1.sound

/-- At the end every vertex is closed. -/
theorem closed_searched (bound : v < graph.vertices.size) : graph.searched.Closed v := by
  obtain ⟨inv, finished, entered⟩ := (Search.invariant_start graph).visits rfl wellFormed
    (List.range graph.vertexCount) fun _ member => List.mem_range.mp member
  have empty : graph.searched.stack = [] := by
    have layout := inv.layout
    rw [finished] at layout
    exact layout.stack_eq_nil
  have known := inv.sound.entered_iff.mp (entered v (Or.inl (List.mem_range.mpr bound)))
  exact known.resolve_left fun member => List.not_mem_nil (empty ▸ member)

/-- Every position is in a component. -/
theorem exists_component (bound : v < graph.vertices.size) :
    ∃ component ∈ graph.components, v ∈ component := by
  obtain ⟨component, member, inside⟩ := wellFormed.closed_searched bound
  exact ⟨component, mem_components_iff.mpr member, inside⟩

theorem component_lt (member : component ∈ graph.components) (inside : v ∈ component) :
    v < graph.vertices.size :=
  wellFormed.sound_searched.closed_lt ⟨component, mem_components_iff.mp member, inside⟩

theorem component_ne_nil (member : component ∈ graph.components) : component ≠ [] :=
  wellFormed.sound_searched.component_nonempty (mem_components_iff.mp member)

theorem component_nodup (member : component ∈ graph.components) : component.Nodup :=
  wellFormed.sound_searched.component_nodup (mem_components_iff.mp member)

/-- A component holds what a member of it reaches and is reached from. -/
theorem mem_component_iff (member : component ∈ graph.components) (inside : v ∈ component) :
    w ∈ component ↔ graph.ReachesAt v w ∧ graph.ReachesAt w v :=
  wellFormed.sound_searched.component_iff (mem_components_iff.mp member) inside

/-- No component reaches one that is completed later. -/
theorem components_ordered : graph.components.Pairwise fun earlier later =>
    ∀ v ∈ earlier, ∀ w ∈ later, ¬ graph.ReachesAt v w :=
  wellFormed.sound_searched.ordered

end WellFormed

end Graph

end DatalogStrata
