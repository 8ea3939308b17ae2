import DatalogStrata.Proofs.Component.Watch

/-!
# What the search does once

The notes taken on a search tell the same as its numbers and its path. The vertices that have been
entered are those with a number, and of each the slots have been taken from the first up to the one
at which its frame stands, or all of them when it has been left. Each is noted once. Every turn of
the loop takes a slot or leaves a vertex, so the turns are as many as the slots taken and the
vertices entered, apart from those still on the path.

When the search has come to its end the path is empty and every vertex has a number, so each vertex
has been entered once and each slot of each vertex taken once.

## Main definitions

* `Watch.Tallies` — the notes agree with the search
* `Graph.everySlot` — all slots, each behind its vertex

## Main results

* `Watch.Tallies.step?` — a turn of the loop fails nowhere and keeps the notes right
* `Watch.exists_drains`, `Watch.exists_visits` — the loop ends below each root
* `Watch.exists_visits_searched` — what has been entered and taken at the end
-/

namespace DatalogStrata

/-- All slots of outgoing edges, each behind its vertex. -/
def Graph.everySlot {V : Type} (graph : Graph V) : List (Nat × Nat) :=
  (List.range graph.vertexCount).flatMap fun v =>
    (List.range (graph.arrows v).size).map fun slot => (v, slot)

theorem Graph.mem_everySlot_iff {V : Type} {graph : Graph V} {v slot : Nat} :
    (v, slot) ∈ graph.everySlot ↔
      v < graph.vertexCount ∧ slot < (graph.arrows v).size := by
  simp [everySlot]

theorem Graph.nodup_everySlot {V : Type} (graph : Graph V) : graph.everySlot.Nodup := by
  rw [everySlot, List.nodup_flatMap]
  refine ⟨fun v _ => List.nodup_range.map fun _ _ same => (Prod.mk.inj same).2, ?_⟩
  refine List.nodup_range.imp fun {u v} different => ?_
  refine List.disjoint_left.mpr fun entry atU atV => ?_
  obtain ⟨slot, -, rfl⟩ := List.mem_map.mp atU
  obtain ⟨other, -, same⟩ := List.mem_map.mp atV
  exact different (Prod.mk.inj same).1.symm

namespace Search

variable {V : Type} {graph : Graph V} {search : Search} {path : List Frame} {stack : List Nat}

/-- No two frames of a path are at one vertex. -/
theorem Layout.vertices_nodup (layout : Layout graph search path stack) (distinct : stack.Nodup) :
    (path.map Frame.vertex).Nodup := by
  induction layout with
  | nil => exact List.nodup_nil
  | cons _ _ rest ih =>
    rw [List.nodup_append, List.nodup_cons] at distinct
    obtain ⟨-, ⟨notBelow, distinctBelow⟩, -⟩ := distinct
    exact List.nodup_cons.mpr
      ⟨fun later => notBelow (rest.vertex_mem _ later), ih distinctBelow⟩

/-- A target without a number is entered. -/
theorem follow_of_new {v w : Nat} (new : search.number[w]? = some none) :
    search.follow v w = search.enter w := by
  rw [follow, new]

/-- A target with a number changes neither numbers nor the path. -/
theorem follow_of_entered {w : Nat} (entered : search.Entered w) (v : Nat) :
    (search.follow v w).number = search.number ∧ (search.follow v w).frames = search.frames := by
  obtain ⟨number, found⟩ := entered
  rw [follow, found]
  dsimp only
  split
  · exact ⟨rfl, rfl⟩
  · exact ⟨rfl, rfl⟩

end Search

namespace Watch

variable {V : Type} {graph : Graph V} {watch : Watch} {frame : Frame} {path : List Frame}
  {v : Nat}

/-- The notes agree with the numbers and the path of the search. -/
structure Tallies (graph : Graph V) (watch : Watch) : Prop where
  entries_nodup : watch.entries.Nodup
  mem_entries_iff : ∀ {v}, v ∈ watch.entries ↔ watch.search.Entered v
  taken_nodup : watch.taken.Nodup
  /-- A slot of an entered vertex has been taken unless a frame at the vertex has yet to come to
  it. -/
  mem_taken_iff : ∀ {v slot}, (v, slot) ∈ watch.taken ↔ watch.search.Entered v ∧
    slot < (graph.arrows v).size ∧ ∀ frame ∈ watch.search.frames, frame.vertex = v →
      slot < frame.next
  /-- A turn takes a slot or leaves a vertex. -/
  turns_eq : watch.turns + watch.search.frames.length =
    watch.taken.length + watch.entries.length

theorem tallies_start (graph : Graph V) : (start graph.vertexCount).Tallies graph := by
  have notEntered (v : Nat) : ¬ (start graph.vertexCount).search.Entered v := by
    rintro ⟨number, found⟩
    simp [start, Search.start, Array.getElem?_replicate] at found
  exact
    { entries_nodup := List.nodup_nil
      mem_entries_iff := iff_of_false List.not_mem_nil (notEntered _)
      taken_nodup := List.nodup_nil
      mem_taken_iff := iff_of_false List.not_mem_nil fun taken => notEntered _ taken.1
      turns_eq := rfl }

namespace Tallies

variable (tallies : watch.Tallies graph)
include tallies

/-- Only numbers and the path matter. -/
theorem withSearch {search : Search} (number : search.number = watch.search.number)
    (frames : search.frames = watch.search.frames) :
    ({ watch with search := search } : Watch).Tallies graph := by
  have entered (v : Nat) : search.Entered v ↔ watch.search.Entered v := by
    rw [Search.Entered, number, Search.Entered]
  refine ⟨tallies.entries_nodup, ?_, tallies.taken_nodup, ?_, ?_⟩
  · intro v
    exact tallies.mem_entries_iff.trans (entered v).symm
  · intro v slot
    rw [tallies.mem_taken_iff]
    simp only [entered, frames]
  · simp only [frames]
    exact tallies.turns_eq

/-- A vertex is entered with a frame that has taken none of its slots. -/
theorem enter (sound : watch.search.Sound graph) (new : watch.search.number[v]? = some none) :
    ({ watch with search := watch.search.enter v, entries := v :: watch.entries } :
      Watch).Tallies graph := by
  have entered {w : Nat} := sound.entered_enter (sound.lt_of_new new) (w := w)
  have frames : (watch.search.enter v).frames = ⟨v, 0⟩ :: watch.search.frames := rfl
  have fresh : ¬ watch.search.Entered v := Search.not_entered_of_new new
  refine ⟨?_, ?_, tallies.taken_nodup, ?_, ?_⟩
  · exact List.nodup_cons.mpr ⟨mt tallies.mem_entries_iff.mp fresh, tallies.entries_nodup⟩
  · intro w
    rw [List.mem_cons, tallies.mem_entries_iff, entered]
  · intro w slot
    simp only [tallies.mem_taken_iff, entered, frames, List.forall_mem_cons]
    by_cases same : w = v
    · subst same
      simp [fresh]
    · simp [same, Ne.symm same]
  · have counted := tallies.turns_eq
    simp only [frames, List.length_cons]
    omega

variable (frames : watch.search.frames = frame :: path)
include frames

/-- The innermost frame takes its next slot. -/
theorem advance (distinct : ((frame :: path).map Frame.vertex).Nodup)
    (entered : watch.search.Entered frame.vertex)
    (bound : frame.next < (graph.arrows frame.vertex).size) :
    (watch.advance frame path).Tallies graph := by
  have taken {v slot : Nat} : (v, slot) ∈ watch.taken ↔ _ := tallies.mem_taken_iff
  simp only [frames, List.forall_mem_cons] at taken
  have elsewhere : ∀ other ∈ path, other.vertex ≠ frame.vertex := by
    intro other member same
    exact (List.nodup_cons.mp distinct).1 (List.mem_map.mpr ⟨other, member, same⟩)
  refine ⟨tallies.entries_nodup, tallies.mem_entries_iff, ?_, ?_, ?_⟩
  · refine List.nodup_cons.mpr ⟨fun old => ?_, tallies.taken_nodup⟩
    exact Nat.lt_irrefl _ ((taken.mp old).2.2.1 rfl)
  · intro v slot
    have unseen : (watch.advance frame path).search.Entered v ↔ watch.search.Entered v := Iff.rfl
    have moved : (watch.advance frame path).search.frames =
        { frame with next := frame.next + 1 } :: path := rfl
    have noted : (watch.advance frame path).taken =
        (frame.vertex, frame.next) :: watch.taken := rfl
    rw [noted, List.mem_cons, Prod.mk.injEq, taken, unseen, moved, List.forall_mem_cons]
    by_cases same : v = frame.vertex
    · -- No other frame is at the vertex, so its slots are taken up to the one just passed.
      subst same
      have others : ∀ other ∈ path, other.vertex = frame.vertex → slot < other.next :=
        fun other member same => absurd same (elsewhere other member)
      rw [and_iff_left others, and_iff_left others]
      simp only [entered, true_and, forall_const]
      omega
    · simp only [same, Ne.symm same, false_and, false_or, IsEmpty.forall_iff, true_and]
  · have counted := tallies.turns_eq
    simp only [frames, List.length_cons] at counted
    simp only [Watch.advance, List.length_cons]
    omega

/-- A frame that has taken all slots of its vertex is given up. -/
theorem shorten (done : (graph.arrows frame.vertex).size ≤ frame.next) :
    (watch.shorten path).Tallies graph := by
  refine ⟨tallies.entries_nodup, tallies.mem_entries_iff, tallies.taken_nodup, ?_, ?_⟩
  · intro v slot
    have taken : (v, slot) ∈ watch.taken ↔ _ := tallies.mem_taken_iff
    rw [frames, List.forall_mem_cons] at taken
    refine taken.trans (and_congr_right' (and_congr_right fun bound => and_iff_right ?_))
    rintro rfl
    exact Nat.lt_of_lt_of_le bound done
  · have counted := tallies.turns_eq
    simp only [frames, List.length_cons] at counted
    simp only [Watch.shorten]
    omega

end Tallies

/-! ## A turn of the loop -/

/-- Following an edge fails nowhere, whether its target is entered or not. -/
theorem Tallies.follow? {w : Nat} (tallies : watch.Tallies graph)
    (sound : watch.search.Sound graph) (bound : v < graph.vertices.size)
    (targetBound : w < graph.vertices.size) :
    ∃ next, watch.follow? v w = some next ∧ next.search = watch.search.follow v w ∧
      next.Tallies graph := by
  obtain ⟨number, found⟩ := sound.fits.exists_number targetBound
  cases number with
  | none =>
    refine ⟨_, follow?_new sound.fits found v, rfl, ?_⟩
    rw [Search.follow_of_new found]
    exact tallies.enter sound found
  | some number =>
    have old : watch.search.Entered w := ⟨number, found⟩
    obtain ⟨sameNumber, sameFrames⟩ := Search.follow_of_entered old v
    exact ⟨_, follow?_old sound.fits old bound, rfl, tallies.withSearch sameNumber sameFrames⟩

/-- Leaving a vertex fails nowhere. -/
theorem Tallies.leave? (tallies : watch.Tallies graph) (sound : watch.search.Sound graph)
    (bound : v < graph.vertices.size)
    (inside : ∀ frame ∈ watch.search.frames, frame.vertex < graph.vertices.size) :
    ∃ next, (do let reported ← watch.report? v; reported.leave? v) = some next ∧
      next.search = (watch.search.report v).leave v ∧ next.Tallies graph := by
  have fits := sound.fits
  have reported := report?_eq fits bound inside
  refine ⟨{ watch with search := (watch.search.report v).leave v }, ?_, rfl,
    tallies.withSearch ?_ ?_⟩
  · rw [reported]
    exact leave?_eq (fits.report v) bound
  · rw [Search.number_leave, Search.number_report]
  · rw [Search.frames_leave, Search.frames_report]

/-- A turn of the loop fails nowhere, does what a step of the search does and keeps the notes
right. -/
theorem Tallies.step? (tallies : watch.Tallies graph) (inv : watch.search.Invariant graph)
    (wellFormed : graph.WellFormed) :
    ∃ next, watch.step? graph = some next ∧ next.search = Search.step graph watch.search ∧
      next.Tallies graph := by
  cases frames : watch.search.frames with
  | nil => exact ⟨watch, by simp only [Watch.step?, frames], by simp only [Search.step, frames],
      tallies⟩
  | cons frame path =>
    have sound := inv.sound
    have layout : Search.Layout graph watch.search (frame :: path) watch.search.stack :=
      frames ▸ inv.layout
    have onStack : ∀ place ∈ frame :: path, place.vertex ∈ watch.search.stack :=
      fun place member => layout.vertex_mem _ (List.mem_map_of_mem member)
    have member := onStack frame List.mem_cons_self
    simp only [Watch.step?, Search.step, frames]
    cases target : graph.target? frame.vertex frame.next with
    | some w =>
      have leads : w ∈ graph.targets frame.vertex :=
        List.mem_of_getElem? ((graph.getElem?_targets _ _).trans target)
      obtain ⟨arrow, placed, -⟩ := Option.map_eq_some_iff.mp target
      have advanced := tallies.advance frames (layout.vertices_nodup sound.stack_nodup)
        (sound.entered_iff.mpr (Or.inl member)) (Array.getElem?_eq_some_iff.mp placed).1
      exact advanced.follow? (sound.withFrames _) (sound.stack_lt member)
        (wellFormed.target_lt leads)
    | none =>
      have shortened := tallies.shorten frames
        (Array.getElem?_eq_none_iff.mp (Option.map_eq_none_iff.mp target))
      exact shortened.leave? (sound.withFrames _) (sound.stack_lt member) fun below listed =>
        sound.stack_lt (onStack below (List.mem_cons_of_mem frame listed))

/-! ## The whole run -/

/-- The loop below a root ends without failing, where the search ends. -/
theorem exists_drains (wellFormed : graph.WellFormed) (tallies : watch.Tallies graph)
    (inv : watch.search.Invariant graph) :
    ∃ last, Drains graph watch last ∧ last.search = Search.drain graph watch.search ∧
      last.Tallies graph := by
  -- The induction is that of the search itself, since a turn does what a step does.
  generalize begun : watch.search = search at inv
  induction search using Search.drain.induct graph generalizing watch with
  | case1 search finished =>
    subst begun
    refine ⟨watch, .finished finished, ?_, tallies⟩
    rw [Search.drain, if_pos finished]
  | case2 search running ih =>
    subst begun
    obtain ⟨next, turned, stepped, nextTallies⟩ := tallies.step? inv wellFormed
    obtain ⟨last, rest, ended, lastTallies⟩ := ih nextTallies stepped (inv.step wellFormed)
    refine ⟨last, .turn running turned rest, ?_, lastTallies⟩
    rw [Search.drain, if_neg running]
    exact ended

section Roots

variable [DecidableEq V]

/-- The search ends below all roots without failing, where the search over their positions ends. -/
theorem exists_visits (wellFormed : graph.WellFormed) (roots : List V)
    (tallies : watch.Tallies graph) (inv : watch.search.Invariant graph)
    (finished : watch.search.frames = []) :
    ∃ last, Visits graph roots watch last ∧
      last.search = (roots.filterMap graph.position?).foldl (Search.visit graph) watch.search ∧
      last.Tallies graph := by
  induction roots generalizing watch with
  | nil => exact ⟨watch, .nil, rfl, tallies⟩
  | cons root rest ih =>
    cases found : graph.position? root with
    | none =>
      obtain ⟨last, visits, ended, right⟩ := ih tallies inv finished
      refine ⟨last, .unplaced found visits, ?_, right⟩
      rw [List.filterMap_cons_none found]
      exact ended
    | some position =>
      have bound := (Array.getElem?_eq_some_iff.mp (wellFormed.position?_eq_some_iff.mp found)).1
      obtain ⟨number, placed⟩ := inv.sound.fits.exists_number bound
      rw [List.filterMap_cons_some found]
      simp only [List.foldl_cons, Search.visit, placed]
      cases number with
      | some number =>
        obtain ⟨last, visits, ended, right⟩ := ih tallies inv finished
        exact ⟨last, .entered found placed visits, ended, right⟩
      | none =>
        have opens := enter?_eq inv.sound.fits bound
        have opened := inv.enter_root finished placed
        obtain ⟨left, drains, drained, leftRight⟩ :=
          exists_drains wellFormed (tallies.enter inv.sound placed) opened
        -- The next root is tried with an empty path again.
        obtain ⟨leftInv, emptied⟩ := opened.drain wellFormed
        rw [← drained] at leftInv emptied
        obtain ⟨last, visits, ended, right⟩ := ih leftRight leftInv emptied
        exact ⟨last, .drained found placed opens drains visits, drained ▸ ended, right⟩

/-- The search ends below all roots without failing, and then every vertex has been entered once and
every slot taken once. -/
theorem exists_visits_searched (wellFormed : graph.WellFormed) :
    ∃ last, Visits graph graph.vertices.toList (start graph.vertexCount) last ∧
      last.search = graph.searched ∧ last.entries.Perm (List.range graph.vertexCount) ∧
      last.taken.Perm graph.everySlot ∧
      last.turns = last.taken.length + last.entries.length := by
  have inv := Search.invariant_start graph
  obtain ⟨last, visits, ended, tallies⟩ :=
    exists_visits wellFormed graph.vertices.toList (tallies_start graph) inv rfl
  rw [wellFormed.filterMap_position?_vertices] at ended
  obtain ⟨lastInv, finished, entered⟩ := inv.visits rfl wellFormed (List.range graph.vertexCount)
    fun _ member => List.mem_range.mp member
  change last.search = graph.searched at ended
  have empty : last.search.frames = [] := ended ▸ finished
  have everywhere (v : Nat) : last.search.Entered v ↔ v < graph.vertexCount := by
    rw [ended]
    refine ⟨?_, fun bound => entered v (Or.inl (List.mem_range.mpr bound))⟩
    rintro ⟨number, found⟩
    rw [Graph.vertexCount, ← lastInv.sound.number_size]
    exact (Array.getElem?_eq_some_iff.mp found).1
  refine ⟨last, visits, ended, ?_, ?_, ?_⟩
  · refine (List.perm_ext_iff_of_nodup tallies.entries_nodup List.nodup_range).mpr fun v => ?_
    rw [tallies.mem_entries_iff, everywhere, List.mem_range]
  · refine (List.perm_ext_iff_of_nodup tallies.taken_nodup graph.nodup_everySlot).mpr ?_
    rintro ⟨v, slot⟩
    rw [tallies.mem_taken_iff, everywhere, empty, Graph.mem_everySlot_iff]
    simp only [List.not_mem_nil, false_implies, implies_true, and_true]
  · have counted := tallies.turns_eq
    rwa [empty, List.length_nil, Nat.add_zero] at counted

end Roots

end Watch

end DatalogStrata
