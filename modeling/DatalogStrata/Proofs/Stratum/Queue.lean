import DatalogStrata.Stratum.Order
import Mathlib.Data.List.Basic

/-!
# The queue of ready components

Components that are ready stand in a queue in the order in which they are to be taken. That order
never ties: two components with the same earliest declaration would still differ by number. So the
queue depends on what has been put into it and not on when it was put there.

## Main definitions

* `Agenda.Ordered` — a queue in the order in which its components are to be taken
* `Agenda.enqueueAll` — put components into a queue one after the other

## Main results

* `Agenda.enqueueAll_perm`, `Agenda.enqueueAll_ordered` — what filling a queue does
* `Agenda.enqueueAll_eq_of_perm` — a queue does not depend on the order in which it was filled
-/

namespace DatalogStrata

theorem ComponentId.index_ne {a b : ComponentId} (different : a ≠ b) : a.index ≠ b.index :=
  fun same => different (congrArg ComponentId.mk same)

namespace Decomposition

variable {decomposition : Decomposition} {a b c : ComponentId}

theorem before_iff : decomposition.before a b = true ↔
    (decomposition.key a).1 < (decomposition.key b).1 ∨
      (decomposition.key a).1 = (decomposition.key b).1 ∧ a.index < b.index := by
  have number (id : ComponentId) : (decomposition.key id).2 = id.index := by
    unfold key
    split <;> rfl
  simp only [before, Bool.or_eq_true, Bool.and_eq_true, decide_eq_true_eq, number]

theorem before_trans (first : decomposition.before a b = true)
    (second : decomposition.before b c = true) : decomposition.before a c = true := by
  rw [before_iff] at first second ⊢
  omega

theorem before_irrefl (decomposition : Decomposition) (a : ComponentId) :
    ¬ decomposition.before a a = true := by
  rw [before_iff]
  omega

theorem before_of_not (different : a ≠ b) (not : ¬ decomposition.before a b = true) :
    decomposition.before b a = true := by
  have index := ComponentId.index_ne different
  rw [before_iff] at not ⊢
  omega

end Decomposition

namespace Agenda

variable {decomposition : Decomposition} {id : ComponentId} {ready ids : List ComponentId}

/-- A queue in which each component is to be taken before all that stand behind it. -/
def Ordered (decomposition : Decomposition) (ready : List ComponentId) : Prop :=
  ready.Pairwise fun a b => decomposition.before a b = true

/-- Put components into a queue one after the other. -/
def enqueueAll (decomposition : Decomposition) (ids ready : List ComponentId) :
    List ComponentId :=
  ids.foldl (fun ready id => enqueue decomposition id ready) ready

theorem Ordered.nodup (ordered : Ordered decomposition ready) : ready.Nodup := by
  apply ordered.imp
  rintro a _ before rfl
  exact decomposition.before_irrefl a before

theorem enqueue_perm (decomposition : Decomposition) (id : ComponentId)
    (ready : List ComponentId) : (enqueue decomposition id ready).Perm (id :: ready) := by
  induction ready with
  | nil => exact List.Perm.refl _
  | cons next rest ih =>
    unfold enqueue
    split
    · exact List.Perm.refl _
    · exact (ih.cons next).trans (List.Perm.swap id next rest)

theorem mem_enqueue {other : ComponentId} :
    other ∈ enqueue decomposition id ready ↔ other = id ∨ other ∈ ready := by
  rw [(enqueue_perm decomposition id ready).mem_iff, List.mem_cons]

theorem enqueue_ordered (ordered : Ordered decomposition ready) (new : id ∉ ready) :
    Ordered decomposition (enqueue decomposition id ready) := by
  induction ready with
  | nil => exact List.pairwise_singleton _ id
  | cons next rest ih =>
    obtain ⟨first, behind⟩ := List.pairwise_cons.mp ordered
    unfold enqueue
    split
    case isTrue before =>
      refine List.pairwise_cons.mpr ⟨fun other member => ?_, ordered⟩
      rcases List.mem_cons.mp member with rfl | later
      · exact before
      · exact Decomposition.before_trans before (first other later)
    case isFalse notBefore =>
      -- Two different components are never tied, so the head of the queue stays before.
      have different : id ≠ next := fun same => new (same ▸ List.mem_cons_self)
      have fresh : id ∉ rest := fun member => new (List.mem_cons_of_mem _ member)
      refine List.pairwise_cons.mpr ⟨fun other member => ?_, ih behind fresh⟩
      rcases mem_enqueue.mp member with rfl | later
      · exact Decomposition.before_of_not different notBefore
      · exact first other later

theorem enqueueAll_perm (decomposition : Decomposition) (ids : List ComponentId) :
    ∀ ready, (enqueueAll decomposition ids ready).Perm (ids ++ ready) := by
  induction ids with
  | nil => exact fun ready => List.Perm.refl _
  | cons first rest ih =>
    intro ready
    have filled : (enqueueAll decomposition (first :: rest) ready).Perm
        (rest ++ enqueue decomposition first ready) := ih _
    have inserted := (enqueue_perm decomposition first ready).append_left rest
    exact (filled.trans inserted).trans List.perm_middle

theorem mem_enqueueAll :
    id ∈ enqueueAll decomposition ids ready ↔ id ∈ ids ∨ id ∈ ready := by
  rw [(enqueueAll_perm decomposition ids ready).mem_iff, List.mem_append]

/-- Filling a queue with components that are not in it keeps it in order. -/
theorem enqueueAll_ordered (ordered : Ordered decomposition ready) (distinct : ids.Nodup)
    (new : ∀ id ∈ ids, id ∉ ready) : Ordered decomposition (enqueueAll decomposition ids ready) := by
  induction ids generalizing ready with
  | nil => exact ordered
  | cons first rest ih =>
    obtain ⟨missing, distinct⟩ := List.nodup_cons.mp distinct
    refine ih (enqueue_ordered ordered (new first List.mem_cons_self)) distinct ?_
    intro id member inside
    rcases mem_enqueue.mp inside with rfl | old
    · exact missing member
    · exact new id (List.mem_cons_of_mem _ member) old

/-- Two queues in order with the same components are equal. -/
theorem Ordered.eq_of_perm {other : List ComponentId} (ordered : Ordered decomposition ready)
    (orderedOther : Ordered decomposition other) (same : ready.Perm other) : ready = other := by
  refine same.eq_of_pairwise ?_ ordered orderedOther
  intro a b _ _ forth back
  exact absurd (Decomposition.before_trans forth back) (decomposition.before_irrefl a)

/-- A queue does not depend on the order in which it was filled. -/
theorem enqueueAll_eq_of_perm (decomposition : Decomposition) {other : List ComponentId}
    (distinct : ids.Nodup) (same : ids.Perm other) :
    enqueueAll decomposition ids [] = enqueueAll decomposition other [] := by
  have filled : Ordered decomposition (enqueueAll decomposition ids []) :=
    enqueueAll_ordered List.Pairwise.nil distinct fun _ _ => List.not_mem_nil
  have filledOther : Ordered decomposition (enqueueAll decomposition other []) :=
    enqueueAll_ordered List.Pairwise.nil (same.nodup_iff.mp distinct) fun _ _ => List.not_mem_nil
  apply filled.eq_of_perm filledOther
  have first := (enqueueAll_perm decomposition ids []).trans (same.append_right [])
  exact first.trans (enqueueAll_perm decomposition other []).symm

end Agenda

end DatalogStrata
