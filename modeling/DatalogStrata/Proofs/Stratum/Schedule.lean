import DatalogStrata.Proofs.Stratum.Agenda
import Mathlib.Data.List.Lex

/-!
# The least schedule

A schedule lists all components so that no edge of the condensation leads from a later one to an
earlier one. The construction takes, of the components that are ready, the one with the earliest
declaration. Any schedule that goes on from the same beginning has to go on with a component that
is ready, so it cannot do better at the first place where it differs, and two components with the
same earliest declaration are one. Hence the constructed order is the least of all schedules.

## Main definitions

* `Decomposition.IsSchedule` — an order of all components in which edges lead forward
* `Decomposition.firstDeclaration` — the earliest declaration of a component

## Main results

* `Decomposition.IsSchedule.mem_of_hasEdge` — no edge leads back over a cut
* `Agenda.startFrom_eq` — it does not matter in which order the queue is filled
* `Agenda.Sound.finish_le` — from any point on, the least of the schedules that go on from there
* `Decomposition.Represents.isSchedule_evaluationOrder` — the order of evaluation is a schedule
* `Decomposition.Represents.evaluationOrder_le` — no schedule has lexicographically less
  declarations
-/

namespace DatalogStrata

namespace Decomposition

/-- All components stand in an order in which no edge leads back. -/
structure IsSchedule (decomposition : Decomposition) (order : List ComponentId) : Prop where
  complete : order.Perm decomposition.condensation.vertices.toList
  forward : order.Pairwise fun earlier later =>
    ¬ decomposition.condensation.HasEdge later earlier

namespace IsSchedule

variable {decomposition : Decomposition} {order earlier later : List ComponentId}
  {a b : ComponentId}

theorem mem_iff (schedule : decomposition.IsSchedule order) :
    a ∈ order ↔ a ∈ decomposition.condensation.vertices := by
  rw [schedule.complete.mem_iff, Array.mem_toList_iff]

theorem nodup (schedule : decomposition.IsSchedule order)
    (wellFormed : decomposition.condensation.WellFormed) : order.Nodup :=
  schedule.complete.nodup_iff.mpr wellFormed.vertices_nodup

/-- Wherever a schedule is cut, no edge leads back over the cut. -/
theorem mem_of_hasEdge (schedule : decomposition.IsSchedule (earlier ++ later))
    (edge : decomposition.condensation.HasEdge a b) (taken : b ∈ earlier) : a ∈ earlier := by
  have listed := schedule.mem_iff.mpr (Graph.mem_vertices_of_hasEdge edge).1
  rcases List.mem_append.mp listed with before | after
  · exact before
  · exact absurd edge ((List.pairwise_append.mp schedule.forward).2.2 b taken a after)

end IsSchedule

/-- The declaration by which a component is chosen: that of its first member. -/
def firstDeclaration (decomposition : Decomposition) (id : ComponentId) : Nat :=
  (decomposition.key id).1

theorem firstDeclaration_of_component? {decomposition : Decomposition} {id : ComponentId}
    {component : Component} (found : decomposition.component? id = some component) :
    decomposition.firstDeclaration id = component.firstDeclared.index := by
  rw [firstDeclaration, key, found]

/-- Different components differ in their first declarations, so the number of a component never
decides. -/
theorem Represents.firstDeclaration_lt {decomposition : Decomposition} {graph : Graph RelationId}
    {a b : ComponentId} (represents : decomposition.Represents graph)
    (vertexA : a ∈ decomposition.condensation.vertices)
    (vertexB : b ∈ decomposition.condensation.vertices)
    (before : decomposition.before a b = true) :
    decomposition.firstDeclaration a < decomposition.firstDeclaration b := by
  obtain ⟨first, foundA⟩ := component?_eq_some_iff.mpr (represents.mem_condensation_iff.mp vertexA)
  obtain ⟨second, foundB⟩ :=
    component?_eq_some_iff.mpr (represents.mem_condensation_iff.mp vertexB)
  rcases before_iff.mp before with less | ⟨tie, number⟩
  · exact less
  · have same : first.firstDeclared = second.firstDeclared := RelationId.ext_index <| by
      rw [← firstDeclaration_of_component? foundA, ← firstDeclaration_of_component? foundB]
      exact tie
    have equal := represents.firstDeclared_inj foundA foundB same
    exact absurd number (equal ▸ Nat.lt_irrefl _)

end Decomposition

namespace Agenda

variable {decomposition : Decomposition} {graph : Graph RelationId} {agenda : Agenda}
  {id : ComponentId}

/-- Before anything has been taken, with a queue filled from the vertices in a given order. -/
def startFrom (decomposition : Decomposition) (vertices : List ComponentId) : Agenda :=
  { start decomposition with
    ready := enqueueAll decomposition
      (vertices.filter fun id => (decomposition.condensation.predecessors id).isEmpty) [] }

theorem finish_of_empty (empty : agenda.ready = []) :
    agenda.finish decomposition = agenda := by
  rw [Agenda.finish]
  split
  · rfl
  · rename_i next
    exact absurd (empty.symm.trans next) (List.cons_ne_nil _ _).symm

theorem finish_of_next {rest : List ComponentId} (next : agenda.ready = id :: rest) :
    agenda.finish decomposition = (agenda.take decomposition id rest).finish decomposition := by
  rw [Agenda.finish]
  split
  · rename_i empty
    exact absurd (empty.symm.trans next) (List.cons_ne_nil _ _).symm
  · rename_i other others found
    obtain ⟨rfl, rfl⟩ := List.cons.inj (found.symm.trans next)
    rfl

theorem finish_extends (decomposition : Decomposition) (agenda : Agenda) :
    ∃ rest, (agenda.finish decomposition).order.toList = agenda.order.toList ++ rest := by
  induction agenda using finish.induct decomposition with
  | case1 agenda empty =>
    rw [finish_of_empty empty]
    exact ⟨[], (List.append_nil _).symm⟩
  | case2 agenda id rest next ih =>
    rw [finish_of_next next]
    obtain ⟨others, extended⟩ := ih
    rw [order_take, Array.toList_push, List.append_assoc] at extended
    exact ⟨[id] ++ others, extended⟩

/-- A queue does not remember in which order it was filled. -/
theorem startFrom_eq {vertices : List ComponentId} (distinct : vertices.Nodup)
    (same : vertices.Perm decomposition.condensation.vertices.toList) :
    startFrom decomposition vertices = start decomposition := by
  have filled := enqueueAll_eq_of_perm decomposition (distinct.filter _)
    (same.filter fun id => (decomposition.condensation.predecessors id).isEmpty)
  rw [startFrom, filled]
  rfl

section

variable (represents : decomposition.Represents graph)
include represents

/-- Taking components until none is ready keeps the invariant and empties the queue. -/
theorem Sound.finish (sound : agenda.Sound decomposition) :
    (agenda.finish decomposition).Sound decomposition ∧
      (agenda.finish decomposition).ready = [] := by
  induction agenda using finish.induct decomposition with
  | case1 agenda empty =>
    rw [finish_of_empty empty]
    exact ⟨sound, empty⟩
  | case2 agenda id rest next ih =>
    rw [finish_of_next next]
    exact ih (sound.take represents next)

/-- A schedule that goes on from what has been taken goes on with a component that is ready. -/
theorem Sound.ready_of_schedule (sound : agenda.Sound decomposition) {tail : List ComponentId}
    (schedule : decomposition.IsSchedule (agenda.order.toList ++ id :: tail)) :
    id ∈ agenda.ready := by
  have distinct := schedule.nodup represents.condensation_wellFormed
  refine sound.mem_ready_iff.mpr ⟨schedule.mem_iff.mp (by simp), ?_, ?_⟩
  · intro taken
    exact List.disjoint_of_nodup_append distinct (Array.mem_toList_iff.mpr taken)
      List.mem_cons_self
  · intro p edge
    -- A predecessor is neither the component itself nor behind it.
    rw [List.append_cons] at schedule
    have notBehind := schedule.mem_of_hasEdge edge (by simp)
    rcases List.mem_append.mp notBehind with taken | last
    · exact Array.mem_toList_iff.mp taken
    · obtain rfl := List.mem_singleton.mp last
      exact absurd .refl (represents.acyclic edge)

/-- Of all schedules that go on from what has been taken, the one that is constructed has the least
sequence of declarations. -/
theorem Sound.finish_le (sound : agenda.Sound decomposition) (tail : List ComponentId)
    (schedule : decomposition.IsSchedule (agenda.order.toList ++ tail)) :
    ∃ rest, (agenda.finish decomposition).order.toList = agenda.order.toList ++ rest ∧
      rest.map decomposition.firstDeclaration ≤ tail.map decomposition.firstDeclaration := by
  induction agenda using finish.induct decomposition generalizing tail with
  | case1 agenda empty =>
    rw [finish_of_empty empty]
    cases tail with
    | nil => exact ⟨[], (List.append_nil _).symm, le_refl _⟩
    | cons next tail =>
      have ready := sound.ready_of_schedule represents schedule
      rw [empty] at ready
      exact absurd ready List.not_mem_nil
  | case2 agenda id rest next ih =>
    rw [finish_of_next next]
    obtain ⟨vertex, new, -⟩ := sound.mem_ready_iff.mp (next ▸ List.mem_cons_self)
    cases tail with
    | nil =>
      have listed := schedule.mem_iff.mpr vertex
      rw [List.append_nil, Array.mem_toList_iff] at listed
      exact absurd listed new
    | cons head tail =>
      have ready := sound.ready_of_schedule represents schedule
      -- Either both go on alike and the rest decides, or they differ here.
      by_cases same : head = id
      · subst same
        have goesOn : (agenda.take decomposition head rest).order.toList ++ tail =
            agenda.order.toList ++ head :: tail := by
          rw [order_take, Array.toList_push, List.append_assoc, List.singleton_append]
        obtain ⟨others, constructed, least⟩ :=
          ih (sound.take represents next) tail (goesOn ▸ schedule)
        refine ⟨head :: others, ?_, List.cons_le_cons _ least⟩
        rw [constructed, order_take, Array.toList_push, List.append_assoc, List.singleton_append]
      · -- The head of the queue has an earlier declaration than any other that is ready.
        have behind : head ∈ rest := (List.mem_cons.mp (next ▸ ready)).resolve_left same
        have before := (List.pairwise_cons.mp (next ▸ sound.ready_ordered)).1 head behind
        have smaller := represents.firstDeclaration_lt vertex (sound.mem_ready_iff.mp ready).1 before
        obtain ⟨others, constructed⟩ :=
          finish_extends decomposition (agenda.take decomposition id rest)
        refine ⟨id :: others, ?_, le_of_lt (List.Lex.rel smaller)⟩
        rw [constructed, order_take, Array.toList_push, List.append_assoc, List.singleton_append]

end

end Agenda

namespace Decomposition.Represents

variable {decomposition : Decomposition} {graph : Graph RelationId}
  (represents : decomposition.Represents graph)
include represents

/-- The order of evaluation is a schedule. -/
theorem isSchedule_evaluationOrder : decomposition.IsSchedule decomposition.evaluationOrder := by
  obtain ⟨sound, finished⟩ := (Agenda.sound_start represents).finish represents
  refine ⟨?_, sound.forward⟩
  refine (List.perm_ext_iff_of_nodup sound.order_nodup
    represents.condensation_wellFormed.vertices_nodup).mpr fun id => ?_
  rw [Array.mem_toList_iff, Array.mem_toList_iff]
  exact ⟨sound.order_vertex id, sound.mem_order represents finished⟩

/-- No schedule has a lexicographically smaller sequence of declarations. -/
theorem evaluationOrder_le {order : List ComponentId}
    (schedule : decomposition.IsSchedule order) :
    decomposition.evaluationOrder.map decomposition.firstDeclaration ≤
      order.map decomposition.firstDeclaration := by
  obtain ⟨rest, constructed, least⟩ :=
    (Agenda.sound_start represents).finish_le represents order schedule
  have whole : decomposition.evaluationOrder = rest := constructed
  rw [whole]
  exact least

end Decomposition.Represents

end DatalogStrata
