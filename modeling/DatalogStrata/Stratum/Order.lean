import DatalogStrata.Component.Basic

/-!
# The order of evaluation

Components are put in an order in which each comes after all that it depends on. Of several that
are ready, the one that holds the earliest declared relation is taken first.

The order is built by counting: a component waits for as many others as it has predecessors in the
condensation, each component taken is counted off at its successors, and a component for which
none is left to wait for becomes ready. Each step takes one component that is ready, and a
component becomes ready only when its count drops to zero, so the components that are ready or
still wait become fewer.

## Main definitions

* `Agenda`, `Agenda.step` — the state of the construction and one step
* `Decomposition.evaluationOrder` — the order

## Main results

* `Agenda.remaining_take` — a step leaves fewer components
-/

namespace DatalogStrata

/-- The state of the construction. -/
structure Agenda where
  /-- For each component how many predecessors are still to be taken. -/
  waiting : Array Nat
  /-- The components that wait for nothing, in the order in which they are to be taken. -/
  ready : List ComponentId
  /-- The components taken so far, in order. -/
  order : Array ComponentId
deriving DecidableEq, Repr

namespace Decomposition

/-- By what a component is chosen: its earliest declared relation, then its number. -/
def key (decomposition : Decomposition) (id : ComponentId) : Nat × Nat :=
  match decomposition.component? id with
  | some component => (component.firstDeclared.index, id.index)
  | none => (0, id.index)

/-- Whether a component is to be taken before another when both are ready. -/
def before (decomposition : Decomposition) (a b : ComponentId) : Bool :=
  let first := decomposition.key a
  let second := decomposition.key b
  first.1 < second.1 || (first.1 = second.1 && first.2 < second.2)

end Decomposition

namespace Agenda

/-- Put a component among those that are ready, before the first that is to be taken later. -/
def enqueue (decomposition : Decomposition) (id : ComponentId) :
    List ComponentId → List ComponentId
  | [] => [id]
  | next :: rest =>
    if decomposition.before id next then id :: next :: rest
    else next :: enqueue decomposition id rest

theorem length_enqueue (decomposition : Decomposition) (id : ComponentId)
    (ready : List ComponentId) :
    (enqueue decomposition id ready).length = ready.length + 1 := by
  induction ready with
  | nil => rfl
  | cons next rest ih =>
    unfold enqueue
    split
    · rfl
    · rw [List.length_cons, ih, List.length_cons]

/-- Before anything has been taken: components without predecessors are ready. -/
def start (decomposition : Decomposition) : Agenda :=
  let vertices := decomposition.condensation.vertices.toList
  let free := vertices.filter fun id => (decomposition.condensation.predecessors id).isEmpty
  { waiting := (vertices.map fun id => (decomposition.condensation.predecessors id).length).toArray
    ready := free.foldl (fun ready id => enqueue decomposition id ready) []
    order := #[] }

/-- Count off one predecessor of a component, which may become ready by it. -/
def countOff (decomposition : Decomposition) (agenda : Agenda) (id : ComponentId) : Agenda :=
  match agenda.waiting[id.index]? with
  | some (left + 1) =>
    { agenda with
      waiting := agenda.waiting.setIfInBounds id.index left
      ready := if left = 0 then enqueue decomposition id agenda.ready else agenda.ready }
  | _ => agenda

/-- Take a component that is ready. -/
def take (decomposition : Decomposition) (agenda : Agenda) (id : ComponentId)
    (rest : List ComponentId) : Agenda :=
  (decomposition.condensation.successors id).foldl (countOff decomposition)
    { agenda with ready := rest, order := agenda.order.push id }

/-- How many components are ready or still wait. -/
def remaining (agenda : Agenda) : Nat :=
  agenda.waiting.countP (0 < ·) + agenda.ready.length

theorem remaining_countOff (decomposition : Decomposition) (agenda : Agenda) (id : ComponentId) :
    (agenda.countOff decomposition id).remaining ≤ agenda.remaining := by
  unfold countOff
  split
  case h_1 left found =>
    -- The count that drops was positive. It either stays positive, or is lost to the ready list.
    obtain ⟨bound, value⟩ := Array.getElem?_eq_some_iff.mp found
    have positive : 0 < agenda.waiting.countP (0 < ·) := by
      rw [Array.countP_pos_iff]
      exact ⟨_, Array.getElem_mem bound, by rw [value]; exact decide_eq_true (Nat.succ_pos left)⟩
    have counted : (agenda.waiting.setIfInBounds id.index left).countP (0 < ·) =
        agenda.waiting.countP (0 < ·) - 1 + if 0 < left then 1 else 0 := by
      rw [Array.setIfInBounds, dif_pos bound, Array.countP_set, value,
        if_pos (decide_eq_true (Nat.succ_pos left))]
      simp only [decide_eq_true_eq]
    simp only [remaining]
    rw [counted]
    by_cases last : left = 0
    · rw [if_pos last, if_neg (by omega), length_enqueue]
      omega
    · rw [if_neg last, if_pos (by omega)]
      omega
  case h_2 => exact Nat.le_refl _

/-- Taking a component leaves fewer components. -/
theorem remaining_take (decomposition : Decomposition) (agenda : Agenda) {id : ComponentId}
    {rest : List ComponentId} (next : agenda.ready = id :: rest) :
    (agenda.take decomposition id rest).remaining < agenda.remaining := by
  -- Counting off at the successors adds nothing; the component taken leaves the ready list.
  have fold : ∀ (ids : List ComponentId) (agenda : Agenda),
      (ids.foldl (countOff decomposition) agenda).remaining ≤ agenda.remaining := by
    intro ids
    induction ids with
    | nil => exact fun agenda => Nat.le_refl _
    | cons first others ih =>
      exact fun agenda => Nat.le_trans (ih _) (remaining_countOff decomposition agenda first)
  refine Nat.lt_of_le_of_lt (fold _ _) ?_
  simp only [remaining, next, List.length_cons]
  omega

/-- Take components until none is ready. -/
def finish (decomposition : Decomposition) (agenda : Agenda) : Agenda :=
  match _next : agenda.ready with
  | [] => agenda
  | id :: rest => finish decomposition (agenda.take decomposition id rest)
termination_by agenda.remaining
decreasing_by exact remaining_take decomposition agenda _next

end Agenda

/-- The components in the order in which they are to be evaluated. -/
def Decomposition.evaluationOrder (decomposition : Decomposition) : List ComponentId :=
  ((Agenda.start decomposition).finish decomposition).order.toList

end DatalogStrata
