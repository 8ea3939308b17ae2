import DatalogStrata.Proofs.Component.Representation
import DatalogStrata.Proofs.Stratum.Queue

/-!
# Counting off predecessors

At every point of the construction the count of a component is the number of its predecessors that
have not been taken, so the queue holds exactly the components all of whose predecessors have been
taken and which have not been taken themselves. Since the condensation has no cycles, nothing is
left when the queue is empty.

## Main definitions

* `Agenda.Sound` — what holds at every point of the construction

## Main results

* `Agenda.waiting_foldl_countOff`, `Agenda.ready_foldl_countOff` — what counting off at several
  components does
* `Agenda.Sound.take` — taking a component keeps the invariant
* `Agenda.Sound.mem_order` — when the queue is empty everything has been taken
-/

namespace DatalogStrata

/-- What holds of an agenda at every point: counts and queue fit what has been taken, and what has
been taken came after all that it depends on. -/
structure Agenda.Sound (decomposition : Decomposition) (agenda : Agenda) : Prop where
  waiting_eq : ∀ id ∈ decomposition.condensation.vertices, agenda.waiting[id.index]? =
    some ((decomposition.condensation.predecessors id).countP (· ∉ agenda.order))
  order_vertex : ∀ id ∈ agenda.order, id ∈ decomposition.condensation.vertices
  order_nodup : agenda.order.toList.Nodup
  closed : ∀ {i j}, decomposition.condensation.HasEdge i j → j ∈ agenda.order → i ∈ agenda.order
  forward : agenda.order.toList.Pairwise fun earlier later =>
    ¬ decomposition.condensation.HasEdge later earlier
  mem_ready_iff : ∀ {id}, id ∈ agenda.ready ↔ id ∈ decomposition.condensation.vertices ∧
    id ∉ agenda.order ∧ ∀ p, decomposition.condensation.HasEdge p id → p ∈ agenda.order
  ready_ordered : Ordered decomposition agenda.ready

namespace Agenda

variable {decomposition : Decomposition} {graph : Graph RelationId} {agenda : Agenda}
  {id : ComponentId} {ids rest : List ComponentId}

/-! ## Counting off -/

theorem order_countOff (decomposition : Decomposition) (agenda : Agenda) (id : ComponentId) :
    (agenda.countOff decomposition id).order = agenda.order := by
  unfold countOff
  split <;> rfl

theorem order_take (decomposition : Decomposition) (agenda : Agenda) (id : ComponentId)
    (rest : List ComponentId) :
    (agenda.take decomposition id rest).order = agenda.order.push id := by
  have kept : ∀ (ids : List ComponentId) (agenda : Agenda),
      (ids.foldl (countOff decomposition) agenda).order = agenda.order := by
    intro ids
    induction ids with
    | nil => exact fun agenda => rfl
    | cons first rest ih =>
      exact fun agenda => (ih _).trans (order_countOff decomposition agenda first)
  exact kept _ _

theorem countOff_eq (decomposition : Decomposition) {left : Nat}
    (found : agenda.waiting[id.index]? = some (left + 1)) :
    agenda.countOff decomposition id =
      { agenda with
        waiting := agenda.waiting.setIfInBounds id.index left
        ready := if left = 0 then enqueue decomposition id agenda.ready else agenda.ready } := by
  unfold countOff
  rw [found]

/-- Counting off at a waiting component lowers its count by one and no other. -/
theorem waiting_countOff (decomposition : Decomposition) {left : Nat}
    (found : agenda.waiting[id.index]? = some (left + 1)) (other : ComponentId) :
    (agenda.countOff decomposition id).waiting[other.index]? =
      if other = id then some left else agenda.waiting[other.index]? := by
  have bound := (Array.getElem?_eq_some_iff.mp found).1
  rw [countOff_eq decomposition found, Array.getElem?_setIfInBounds]
  by_cases same : other = id
  · subst same
    rw [if_pos rfl, if_pos bound, if_pos rfl]
  · rw [if_neg (ComponentId.index_ne (Ne.symm same)), if_neg same]

/-- Counting off at one component leaves the counts of others that are counted off after it. -/
theorem waiting_countOff_of_mem (decomposition : Decomposition) {left : Nat}
    (found : agenda.waiting[id.index]? = some (left + 1)) (missing : id ∉ ids) :
    ∀ other ∈ ids, (agenda.countOff decomposition id).waiting[other.index]? =
      agenda.waiting[other.index]? := by
  intro other member
  have different : other ≠ id := fun same => missing (same ▸ member)
  rw [waiting_countOff decomposition found, if_neg different]

/-- Counting off at distinct components that all wait lowers each of their counts by one. -/
theorem waiting_foldl_countOff (decomposition : Decomposition) (agenda : Agenda)
    (distinct : ids.Nodup)
    (waits : ∀ id ∈ ids, ∃ left, agenda.waiting[id.index]? = some (left + 1))
    (other : ComponentId) :
    (ids.foldl (countOff decomposition) agenda).waiting[other.index]? =
      if other ∈ ids then agenda.waiting[other.index]?.map (· - 1)
      else agenda.waiting[other.index]? := by
  induction ids generalizing agenda with
  | nil => rfl
  | cons first rest ih =>
    obtain ⟨missing, distinct⟩ := List.nodup_cons.mp distinct
    obtain ⟨left, found⟩ := waits first List.mem_cons_self
    have kept := waiting_countOff_of_mem decomposition found missing
    have stillWaits : ∀ id ∈ rest, ∃ left,
        (agenda.countOff decomposition first).waiting[id.index]? = some (left + 1) := by
      intro id member
      rw [kept id member]
      exact waits id (List.mem_cons_of_mem _ member)
    rw [List.foldl_cons, ih _ distinct stillWaits, waiting_countOff decomposition found]
    by_cases same : other = first
    · subst same
      rw [if_neg missing, if_pos rfl, if_pos List.mem_cons_self, found]
      rfl
    · rw [if_neg same]
      simp only [List.mem_cons, same, false_or]

/-- Of the components that are counted off those that had one left are put into the queue. -/
theorem ready_foldl_countOff (decomposition : Decomposition) (agenda : Agenda)
    (distinct : ids.Nodup)
    (waits : ∀ id ∈ ids, ∃ left, agenda.waiting[id.index]? = some (left + 1)) :
    (ids.foldl (countOff decomposition) agenda).ready = enqueueAll decomposition
      (ids.filter fun id => agenda.waiting[id.index]? = some 1) agenda.ready := by
  induction ids generalizing agenda with
  | nil => rfl
  | cons first rest ih =>
    obtain ⟨missing, distinct⟩ := List.nodup_cons.mp distinct
    obtain ⟨left, found⟩ := waits first List.mem_cons_self
    -- The count of the first component changes, but it is not counted off again.
    have kept := waiting_countOff_of_mem decomposition found missing
    have stillWaits : ∀ id ∈ rest, ∃ left,
        (agenda.countOff decomposition first).waiting[id.index]? = some (left + 1) := by
      intro id member
      rw [kept id member]
      exact waits id (List.mem_cons_of_mem _ member)
    have sameLast : (rest.filter fun id =>
        (agenda.countOff decomposition first).waiting[id.index]? = some 1) =
        rest.filter fun id => agenda.waiting[id.index]? = some 1 :=
      List.filter_congr fun id member => by rw [kept id member]
    rw [List.foldl_cons, ih _ distinct stillWaits, sameLast, countOff_eq decomposition found]
    by_cases last : left = 0
    · rw [List.filter_cons_of_pos (by simp [found, last])]
      simp only [if_pos last]
      rfl
    · rw [List.filter_cons_of_neg (by simp [found, last])]
      simp only [if_neg last]

/-- When one more is taken, a count over distinct components drops by one if it is among them. -/
theorem countP_not_mem_push {order : Array ComponentId} (new : id ∉ order)
    (distinct : ids.Nodup) : ids.countP (· ∉ order) =
      ids.countP (· ∉ order.push id) + if id ∈ ids then 1 else 0 := by
  induction ids with
  | nil => rfl
  | cons first rest ih =>
    obtain ⟨missing, distinct⟩ := List.nodup_cons.mp distinct
    simp only [List.countP_cons, ih distinct, Array.mem_push, List.mem_cons]
    -- The first one drops out of the count itself, or it counts on both sides.
    by_cases same : first = id
    · subst same
      simp [missing, new]
    · simp [same, Ne.symm same]
      omega

/-! ## The invariant -/

theorem ready_start (decomposition : Decomposition) : (start decomposition).ready =
    enqueueAll decomposition (decomposition.condensation.vertices.toList.filter fun id =>
      (decomposition.condensation.predecessors id).isEmpty) [] := rfl

section

variable (represents : decomposition.Represents graph)
include represents

/-- Before anything has been taken the invariant holds. -/
theorem sound_start : (start decomposition).Sound decomposition where
  waiting_eq := by
    intro id vertex
    have bound := represents.mem_condensation_iff.mp vertex
    have all (p : ComponentId) : decide (p ∉ (#[] : Array ComponentId)) = true := by simp
    simp only [start, List.getElem?_toArray, List.getElem?_map, represents.condensation_vertices,
      List.getElem?_range bound, Option.map_some, all, List.countP_true]
  order_vertex := fun id taken => absurd taken (Array.not_mem_empty id)
  order_nodup := List.nodup_nil
  closed := fun _ taken => absurd taken (Array.not_mem_empty _)
  forward := List.Pairwise.nil
  mem_ready_iff := by
    intro id
    have free : (decomposition.condensation.predecessors id).isEmpty = true ↔
        ∀ p, ¬ decomposition.condensation.HasEdge p id := by
      simp only [List.isEmpty_iff, List.eq_nil_iff_forall_not_mem,
        represents.condensation_wellFormed.mem_predecessors_iff]
    rw [ready_start, mem_enqueueAll, List.mem_filter, Array.mem_toList_iff, free]
    simp only [start, Array.not_mem_empty, List.not_mem_nil, or_false, not_false_eq_true, true_and]
  ready_ordered := by
    have distinct := represents.condensation_wellFormed.vertices_nodup
    exact enqueueAll_ordered List.Pairwise.nil (distinct.filter _) fun _ _ => List.not_mem_nil

namespace Sound

variable (sound : agenda.Sound decomposition)
include sound

/-- A component becomes ready by taking another one when that one was its last predecessor. -/
theorem waiting_one_iff {other : ComponentId} (new : id ∉ agenda.order)
    (edge : decomposition.condensation.HasEdge id other) :
    agenda.waiting[other.index]? = some 1 ↔
      ∀ p, decomposition.condensation.HasEdge p other → p ∈ agenda.order.push id := by
  have wellFormed := represents.condensation_wellFormed
  have member := wellFormed.mem_predecessors_iff.mpr edge
  have distinct := wellFormed.predecessors_nodup other
  rw [sound.waiting_eq other (Graph.mem_vertices_of_hasEdge edge).2,
    countP_not_mem_push new distinct, if_pos member, Option.some_inj, Nat.add_eq_right,
    List.countP_eq_zero]
  simp only [wellFormed.mem_predecessors_iff, decide_eq_true_eq, not_not]

/-- The successors of a component that has not been taken all wait. -/
theorem successors_wait (new : id ∉ agenda.order) :
    ∀ other ∈ decomposition.condensation.successors id,
      ∃ left, agenda.waiting[other.index]? = some (left + 1) := by
  intro other successor
  have wellFormed := represents.condensation_wellFormed
  have edge := wellFormed.mem_successors_iff.mp successor
  have member := wellFormed.mem_predecessors_iff.mpr edge
  have distinct := wellFormed.predecessors_nodup other
  rw [sound.waiting_eq other (Graph.mem_vertices_of_hasEdge edge).2,
    countP_not_mem_push new distinct, if_pos member]
  exact ⟨_, rfl⟩

/-- The count of a successor drops by one, as does the number of its predecessors not taken. -/
theorem waiting_take (next : agenda.ready = id :: rest) {other : ComponentId}
    (vertex : other ∈ decomposition.condensation.vertices) :
    (agenda.take decomposition id rest).waiting[other.index]? =
      some ((decomposition.condensation.predecessors other).countP
        (· ∉ agenda.order.push id)) := by
  have wellFormed := represents.condensation_wellFormed
  obtain ⟨-, new, -⟩ := sound.mem_ready_iff.mp (next ▸ List.mem_cons_self)
  have counted := sound.waiting_eq other vertex
  rw [countP_not_mem_push new (wellFormed.predecessors_nodup other)] at counted
  have waits := sound.successors_wait represents new
  have lowered := waiting_foldl_countOff decomposition
    { agenda with ready := rest, order := agenda.order.push id }
    (wellFormed.successors_nodup id) waits other
  rw [Agenda.take, lowered, counted]
  have same : other ∈ decomposition.condensation.successors id ↔
      id ∈ decomposition.condensation.predecessors other := by
    rw [wellFormed.mem_successors_iff, wellFormed.mem_predecessors_iff]
  by_cases edge : id ∈ decomposition.condensation.predecessors other
  · rw [if_pos (same.mpr edge), if_pos edge, Option.map_some, Nat.add_sub_cancel]
  · rw [if_neg (mt same.mp edge), if_neg edge, Nat.add_zero]

/-- What becomes ready joins the rest of the queue. -/
theorem ready_take (next : agenda.ready = id :: rest) :
    (agenda.take decomposition id rest).ready = enqueueAll decomposition
      ((decomposition.condensation.successors id).filter fun other =>
        agenda.waiting[other.index]? = some 1) rest := by
  obtain ⟨-, new, -⟩ := sound.mem_ready_iff.mp (next ▸ List.mem_cons_self)
  have waits := sound.successors_wait represents new
  exact ready_foldl_countOff decomposition
    { agenda with ready := rest, order := agenda.order.push id }
    (represents.condensation_wellFormed.successors_nodup id) waits

/-- The queue again holds what has no predecessor left and has not been taken. -/
theorem mem_ready_take (next : agenda.ready = id :: rest) {other : ComponentId} :
    other ∈ (agenda.take decomposition id rest).ready ↔
      other ∈ decomposition.condensation.vertices ∧ other ∉ agenda.order.push id ∧
        ∀ p, decomposition.condensation.HasEdge p other → p ∈ agenda.order.push id := by
  have wellFormed := represents.condensation_wellFormed
  obtain ⟨-, new, free⟩ := sound.mem_ready_iff.mp (next ▸ List.mem_cons_self)
  have missing : id ∉ rest := (List.nodup_cons.mp (next ▸ sound.ready_ordered.nodup)).1
  rw [sound.ready_take represents next, mem_enqueueAll, List.mem_filter,
    wellFormed.mem_successors_iff, decide_eq_true_eq]
  constructor
  · rintro (⟨edge, last⟩ | waiting)
    · refine ⟨(Graph.mem_vertices_of_hasEdge edge).2, ?_,
        (sound.waiting_one_iff represents new edge).mp last⟩
      rw [Array.mem_push]
      rintro (taken | rfl)
      · exact new (sound.closed edge taken)
      · exact new (free other edge)
    · obtain ⟨vertex, notTaken, before⟩ :=
        sound.mem_ready_iff.mp (next ▸ List.mem_cons_of_mem id waiting)
      refine ⟨vertex, ?_, fun p edge => Array.mem_push_of_mem id (before p edge)⟩
      rw [Array.mem_push]
      rintro (taken | rfl)
      · exact notTaken taken
      · exact missing waiting
  · rintro ⟨vertex, notTaken, before⟩
    rw [Array.mem_push, not_or] at notTaken
    by_cases edge : decomposition.condensation.HasEdge id other
    · exact Or.inl ⟨edge, (sound.waiting_one_iff represents new edge).mpr before⟩
    · -- Without an edge from what is taken it was ready before, and it is another component.
      have ready : other ∈ agenda.ready := by
        refine sound.mem_ready_iff.mpr ⟨vertex, notTaken.1, fun p leads => ?_⟩
        rcases Array.mem_push.mp (before p leads) with old | rfl
        · exact old
        · exact absurd leads edge
      rw [next] at ready
      exact Or.inr ((List.mem_cons.mp ready).resolve_left notTaken.2)

theorem ready_take_ordered (next : agenda.ready = id :: rest) :
    Ordered decomposition (agenda.take decomposition id rest).ready := by
  have wellFormed := represents.condensation_wellFormed
  obtain ⟨-, new, -⟩ := sound.mem_ready_iff.mp (next ▸ List.mem_cons_self)
  have ordered : Ordered decomposition (id :: rest) := next ▸ sound.ready_ordered
  rw [sound.ready_take represents next]
  refine enqueueAll_ordered ordered.of_cons ((wellFormed.successors_nodup id).filter _) ?_
  intro other member inside
  -- A component in the queue has no predecessor left, so it is no successor of what is taken.
  have edge := wellFormed.mem_successors_iff.mp (List.mem_filter.mp member).1
  have waiting := sound.mem_ready_iff.mp (next ▸ List.mem_cons_of_mem id inside)
  exact new (waiting.2.2 id edge)

/-- Taking the component at the head of the queue keeps the invariant. -/
theorem take (next : agenda.ready = id :: rest) :
    (agenda.take decomposition id rest).Sound decomposition := by
  obtain ⟨vertex, new, free⟩ := sound.mem_ready_iff.mp (next ▸ List.mem_cons_self)
  have order := order_take decomposition agenda id rest
  have added {other : ComponentId} :
      other ∈ (agenda.take decomposition id rest).order ↔ other ∈ agenda.order ∨ other = id := by
    rw [order, Array.mem_push]
  exact
    { waiting_eq := by
        rw [order]
        exact fun other inside => sound.waiting_take represents next inside
      order_vertex := by
        intro other member
        rcases added.mp member with old | rfl
        · exact sound.order_vertex other old
        · exact vertex
      order_nodup := by
        rw [order, Array.toList_push]
        refine List.Nodup.append sound.order_nodup (List.nodup_singleton id) ?_
        exact List.disjoint_singleton.mpr fun old => new (Array.mem_toList_iff.mp old)
      closed := by
        intro i j edge member
        rcases added.mp member with old | rfl
        · exact added.mpr (Or.inl (sound.closed edge old))
        · exact added.mpr (Or.inl (free i edge))
      forward := by
        rw [order, Array.toList_push, List.pairwise_append]
        refine ⟨sound.forward, List.pairwise_singleton _ id, ?_⟩
        intro earlier old later latest edge
        -- An edge back would make what is taken now a predecessor of what was taken before.
        rw [List.mem_singleton.mp latest] at edge
        exact new (sound.closed edge (Array.mem_toList_iff.mp old))
      mem_ready_iff := by
        rw [order]
        exact sound.mem_ready_take represents next
      ready_ordered := sound.ready_take_ordered represents next }

/-- When the queue is empty everything has been taken. -/
theorem mem_order (finished : agenda.ready = [])
    (vertex : id ∈ decomposition.condensation.vertices) : id ∈ agenda.order := by
  apply represents.condensation_induction ?_ id vertex
  intro id vertex before
  -- All predecessors have been taken, so the component would be ready if it had not been taken.
  by_contra notTaken
  have ready := sound.mem_ready_iff.mpr ⟨vertex, notTaken, before⟩
  rw [finished] at ready
  exact List.not_mem_nil ready

end Sound

end

end Agenda

end DatalogStrata
