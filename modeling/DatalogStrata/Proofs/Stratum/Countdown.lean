import DatalogStrata.Proofs.Stratum.Schedule
import DatalogStrata.Proofs.Component.Decomposition

/-!
# Before each component is taken

The construction of the order of evaluation is followed turn by turn, with every subtraction
checked and with a record of all that was ever put into the queue. Counts are filled from the
predecessors and counted off along the successors, and the two mirror each other edge for edge, so
what is counted off always still waits. A component that has just become ready had a predecessor
that was not taken before, so it had not been in the queue. As long as a component is left some
component is ready, since the condensation has no cycles; so there are as many turns as components.

## Main definitions

* `Ledger`, `Ledger.turn?` — an agenda with all that has been queued, and a turn that is checked
* `Ledger.Balanced` — what holds before every turn

## Main results

* `Ledger.foldlM_countOff?` — counting off at components that all wait does not fail
* `Ledger.Balanced.turn` — a turn does not fail and keeps the invariant
* `Ledger.Balanced.ready_eq_nil_iff` — the queue is empty when everything has been taken
* `Ledger.holds_before_each_turn` — what holds of counts, queue and order before every turn
-/

namespace DatalogStrata

/-- What is ready waits for nothing and has not been taken. -/
theorem Agenda.Sound.mem_ready_iff_waiting {decomposition : Decomposition}
    {graph : Graph RelationId} {agenda : Agenda} (sound : agenda.Sound decomposition)
    (represents : decomposition.Represents graph) (id : ComponentId) :
    id ∈ agenda.ready ↔ id ∈ decomposition.condensation.vertices ∧ id ∉ agenda.order ∧
      agenda.waiting[id.index]? = some 0 := by
  have wellFormed := represents.condensation_wellFormed
  rw [sound.mem_ready_iff]
  refine and_congr_right fun vertex => and_congr_right fun _ => ?_
  rw [sound.waiting_eq id vertex, Option.some_inj, List.countP_eq_zero]
  simp only [wellFormed.mem_predecessors_iff, decide_eq_true_eq, not_not]

/-- An agenda with a record of the queue. -/
structure Ledger where
  agenda : Agenda
  /-- Each component that was put into the queue as often as it was, the latest first. -/
  queued : List ComponentId
deriving DecidableEq, Repr

namespace Ledger

/-- Before anything has been taken. -/
def start (decomposition : Decomposition) : Ledger where
  agenda := Agenda.start decomposition
  queued := (decomposition.condensation.vertices.toList.filter fun id =>
    (decomposition.condensation.predecessors id).isEmpty).reverse

/-- Count off one predecessor of a component. This fails when none is left to count off; a
component without a count is passed over. -/
def countOff? (decomposition : Decomposition) (ledger : Ledger) (id : ComponentId) :
    Option Ledger :=
  match ledger.agenda.waiting[id.index]? with
  | some (left + 1) => some
    { agenda := ledger.agenda.countOff decomposition id
      queued := if left = 0 then id :: ledger.queued else ledger.queued }
  | some 0 => none
  | none => some ledger

/-- Take the component at the head of the queue, if there is one. -/
def turn? (decomposition : Decomposition) (ledger : Ledger) : Option Ledger :=
  match ledger.agenda.ready with
  | [] => some ledger
  | id :: rest =>
    let taken := { ledger.agenda with ready := rest, order := ledger.agenda.order.push id }
    (decomposition.condensation.successors id).foldlM (countOff? decomposition)
      { ledger with agenda := taken }

/-- The ledger after so many turns. -/
def after? (decomposition : Decomposition) : Nat → Option Ledger
  | 0 => some (start decomposition)
  | turns + 1 => after? decomposition turns >>= turn? decomposition

/-- What holds before every turn: the agenda is sound and on its way to the order of evaluation,
and what was put into the queue was put there once and is there still or has been taken. -/
structure Balanced (decomposition : Decomposition) (ledger : Ledger) : Prop where
  sound : ledger.agenda.Sound decomposition
  queued_nodup : ledger.queued.Nodup
  mem_queued_iff : ∀ {id}, id ∈ ledger.queued ↔
    id ∈ ledger.agenda.ready ∨ id ∈ ledger.agenda.order
  finish_eq : ledger.agenda.finish decomposition =
    (Agenda.start decomposition).finish decomposition

variable {decomposition : Decomposition} {graph : Graph RelationId} {ledger : Ledger}
  {id : ComponentId} {ids rest : List ComponentId}

theorem countOff?_eq (decomposition : Decomposition) {left : Nat}
    (found : ledger.agenda.waiting[id.index]? = some (left + 1)) :
    ledger.countOff? decomposition id = some
      { agenda := ledger.agenda.countOff decomposition id
        queued := if left = 0 then id :: ledger.queued else ledger.queued } := by
  unfold countOff?
  rw [found]

/-- Counting off at distinct components that all wait does not fail, and puts those that had one
left into the queue. -/
theorem foldlM_countOff? (decomposition : Decomposition) (ledger : Ledger) (distinct : ids.Nodup)
    (waits : ∀ id ∈ ids, ∃ left, ledger.agenda.waiting[id.index]? = some (left + 1)) :
    ids.foldlM (countOff? decomposition) ledger = some
      { agenda := ids.foldl (Agenda.countOff decomposition) ledger.agenda
        queued := (ids.filter fun id => ledger.agenda.waiting[id.index]? = some 1).reverse ++
          ledger.queued } := by
  induction ids generalizing ledger with
  | nil => rfl
  | cons first rest ih =>
    obtain ⟨missing, distinct⟩ := List.nodup_cons.mp distinct
    obtain ⟨left, found⟩ := waits first List.mem_cons_self
    -- The count of the first component changes, but it is not counted off again.
    have kept := Agenda.waiting_countOff_of_mem decomposition found missing
    have sameLast : (rest.filter fun id =>
        (ledger.agenda.countOff decomposition first).waiting[id.index]? = some 1) =
        rest.filter fun id => ledger.agenda.waiting[id.index]? = some 1 :=
      List.filter_congr fun id member => by rw [kept id member]
    rw [List.foldlM_cons, countOff?_eq decomposition found, Option.bind_eq_bind, Option.bind_some,
      ih _ distinct ?_, sameLast]
    · by_cases last : left = 0
      · rw [List.filter_cons_of_pos (by simp [found, last]), if_pos last, List.reverse_cons,
          List.append_assoc]
        rfl
      · rw [List.filter_cons_of_neg (by simp [found, last]), if_neg last]
        rfl
    · intro id member
      rw [kept id member]
      exact waits id (List.mem_cons_of_mem _ member)

/-- Before anything has been taken the invariant holds. -/
theorem balanced_start (represents : decomposition.Represents graph) :
    (start decomposition).Balanced decomposition where
  sound := Agenda.sound_start represents
  queued_nodup := by
    rw [start, List.nodup_reverse]
    exact represents.condensation_wellFormed.vertices_nodup.filter _
  mem_queued_iff := by
    intro id
    have nothing : id ∉ (Agenda.start decomposition).order := Array.not_mem_empty id
    rw [start, Agenda.ready_start, Agenda.mem_enqueueAll, List.mem_reverse]
    simp only [nothing, List.not_mem_nil, or_false]
  finish_eq := rfl

namespace Balanced

variable (balanced : ledger.Balanced decomposition)
include balanced

/-- What becomes ready by taking a component has not been in the queue. -/
theorem not_mem_queued (new : id ∉ ledger.agenda.order) {other : ComponentId}
    (edge : decomposition.condensation.HasEdge id other) : other ∉ ledger.queued := by
  intro before
  -- What has been in the queue had no predecessor left, but this one has just been taken.
  rcases balanced.mem_queued_iff.mp before with ready | taken
  · exact new ((balanced.sound.mem_ready_iff.mp ready).2.2 id edge)
  · exact new (balanced.sound.closed edge taken)

/-- Components are left as long as the queue is not empty. -/
theorem size_lt (next : ledger.agenda.ready = id :: rest) :
    ledger.agenda.order.size < decomposition.condensation.vertexCount := by
  have sound := balanced.sound
  obtain ⟨vertex, new, -⟩ := sound.mem_ready_iff.mp (next ▸ List.mem_cons_self)
  -- The head of the queue and what has been taken are different components.
  have distinct : (id :: ledger.agenda.order.toList).Nodup :=
    List.nodup_cons.mpr ⟨mt Array.mem_toList_iff.mp new, sound.order_nodup⟩
  have inside : id :: ledger.agenda.order.toList ⊆ decomposition.condensation.vertices.toList := by
    intro other member
    rw [Array.mem_toList_iff]
    rcases List.mem_cons.mp member with same | taken
    · exact same ▸ vertex
    · exact sound.order_vertex other (Array.mem_toList_iff.mp taken)
  exact (distinct.subperm inside).length_le

/-- When the queue is empty the order of evaluation has been built. -/
theorem order_eq (empty : ledger.agenda.ready = []) :
    ledger.agenda.order.toList = decomposition.evaluationOrder := by
  have finished : ledger.agenda.finish decomposition = ledger.agenda :=
    Agenda.finish_of_empty empty
  rw [Decomposition.evaluationOrder, ← balanced.finish_eq, finished]

section

variable (represents : decomposition.Represents graph)
include represents

/-- A turn does not fail: all successors of what is taken still wait. -/
theorem turn?_eq (next : ledger.agenda.ready = id :: rest) :
    ledger.turn? decomposition = some
      { agenda := ledger.agenda.take decomposition id rest
        queued := ((decomposition.condensation.successors id).filter fun other =>
          ledger.agenda.waiting[other.index]? = some 1).reverse ++ ledger.queued } := by
  obtain ⟨-, new, -⟩ := balanced.sound.mem_ready_iff.mp (next ▸ List.mem_cons_self)
  have waits := balanced.sound.successors_wait represents new
  have distinct := represents.condensation_wellFormed.successors_nodup id
  rw [turn?, next]
  exact foldlM_countOff? decomposition _ distinct waits

/-- A turn that takes the head of the queue keeps the invariant. -/
theorem turn (next : ledger.agenda.ready = id :: rest) :
    ∃ later, ledger.turn? decomposition = some later ∧ later.Balanced decomposition ∧
      later.agenda.order = ledger.agenda.order.push id := by
  have wellFormed := represents.condensation_wellFormed
  have order := Agenda.order_take decomposition ledger.agenda id rest
  obtain ⟨-, new, -⟩ := balanced.sound.mem_ready_iff.mp (next ▸ List.mem_cons_self)
  refine ⟨_, balanced.turn?_eq represents next, ?_, order⟩
  exact
    { sound := balanced.sound.take represents next
      queued_nodup := by
        refine List.Nodup.append ?_ balanced.queued_nodup ?_
        · rw [List.nodup_reverse]
          exact (wellFormed.successors_nodup id).filter _
        · intro other latest before
          have successor := (List.mem_filter.mp (List.mem_reverse.mp latest)).1
          have edge := wellFormed.mem_successors_iff.mp successor
          exact balanced.not_mem_queued new edge before
      mem_queued_iff := by
        intro other
        -- What is taken leaves the queue for the order, the rest stays where it was.
        rw [List.mem_append, List.mem_reverse, balanced.mem_queued_iff, next, order,
          balanced.sound.ready_take represents next, Agenda.mem_enqueueAll, List.mem_cons,
          Array.mem_push]
        tauto
      finish_eq := by
        rw [← balanced.finish_eq, Agenda.finish_of_next next] }

/-- The queue is empty exactly when everything has been taken. -/
theorem ready_eq_nil_iff : ledger.agenda.ready = [] ↔
    ledger.agenda.order.size = decomposition.condensation.vertexCount := by
  constructor
  · intro empty
    -- The construction has ended, and the order of evaluation lists every component.
    have complete := represents.isSchedule_evaluationOrder.complete.length_eq
    rwa [← balanced.order_eq empty] at complete
  · intro all
    cases next : ledger.agenda.ready with
    | nil => rfl
    | cons id rest => exact absurd all (Nat.ne_of_lt (balanced.size_lt next))

end

end Balanced

/-- Before every turn the invariant holds, and each turn so far has taken a component, as long as
there was one. -/
theorem balanced_after (represents : decomposition.Represents graph) (turns : Nat) :
    ∃ ledger, after? decomposition turns = some ledger ∧ ledger.Balanced decomposition ∧
      ledger.agenda.order.size = min turns decomposition.condensation.vertexCount := by
  induction turns with
  | zero => exact ⟨start decomposition, rfl, balanced_start represents, (Nat.zero_min _).symm⟩
  | succ turns ih =>
    obtain ⟨ledger, reached, balanced, size⟩ := ih
    cases next : ledger.agenda.ready with
    | nil =>
      -- Nothing is left to take, and from here on nothing changes.
      have all := (balanced.ready_eq_nil_iff represents).mp next
      refine ⟨ledger, ?_, balanced, by omega⟩
      rw [after?, reached, Option.bind_eq_bind, Option.bind_some, turn?, next]
    | cons id rest =>
      have left := balanced.size_lt next
      obtain ⟨later, turned, kept, order⟩ := balanced.turn represents next
      refine ⟨later, ?_, kept, ?_⟩
      · rw [after?, reached, Option.bind_eq_bind, Option.bind_some, turned]
      · rw [order, Array.size_push]
        omega

/-- The order of evaluation of any graph is built without ever counting below zero. Before every
turn, from where the construction goes on to the same end: nothing is in the order twice; the count
of a component is the number of its predecessors that are not in the order; the queue holds exactly
the components outside the order whose count is zero, each once; and what has been put into the
queue was put there once. There are exactly as many turns as components, and the order then has all
of them. -/
theorem holds_before_each_turn (log : List (Insertion RelationId)) :
    let decomposition := Decomposition.ofGraph (Graph.ofInsertions log)
    let condensation := decomposition.condensation
    decomposition.evaluationOrder.Perm condensation.vertices.toList ∧
    ∀ turns, ∃ ledger, after? decomposition turns = some ledger ∧
      ledger.agenda.finish decomposition = (Agenda.start decomposition).finish decomposition ∧
      ledger.agenda.order.toList.Nodup ∧
      ledger.agenda.order.size = min turns condensation.vertexCount ∧
      (∀ id ∈ condensation.vertices, ledger.agenda.waiting[id.index]? =
        some ((condensation.predecessors id).countP (· ∉ ledger.agenda.order))) ∧
      ledger.agenda.ready.Nodup ∧
      (∀ id, id ∈ ledger.agenda.ready ↔ id ∈ condensation.vertices ∧
        id ∉ ledger.agenda.order ∧ ledger.agenda.waiting[id.index]? = some 0) ∧
      ledger.queued.Nodup ∧
      (∀ id, id ∈ ledger.queued ↔ id ∈ ledger.agenda.ready ∨ id ∈ ledger.agenda.order) ∧
      (ledger.agenda.ready = [] ↔ condensation.vertexCount ≤ turns) ∧
      (condensation.vertexCount ≤ turns →
        ledger.agenda.order.toList = decomposition.evaluationOrder) := by
  intro decomposition condensation
  have represents : decomposition.Represents (Graph.ofInsertions log) :=
    Decomposition.represents_ofGraph (Graph.wellFormed_ofInsertions log)
  refine ⟨represents.isSchedule_evaluationOrder.complete, ?_⟩
  intro turns
  obtain ⟨ledger, reached, balanced, size⟩ := balanced_after represents turns
  have sound := balanced.sound
  have empty_iff : ledger.agenda.ready = [] ↔ condensation.vertexCount ≤ turns := by
    rw [balanced.ready_eq_nil_iff represents, size]
    exact min_eq_right_iff
  refine ⟨ledger, reached, balanced.finish_eq, sound.order_nodup, size, sound.waiting_eq,
    sound.ready_ordered.nodup, sound.mem_ready_iff_waiting represents, balanced.queued_nodup,
    fun id => balanced.mem_queued_iff, empty_iff, ?_⟩
  intro enough
  exact balanced.order_eq (empty_iff.mpr enough)

end Ledger

end DatalogStrata
