import Mathlib.Data.List.Forall2

/-!
# Traversals and checks that can fail

A list is traversed by a step that may fail on an item, and the traversal fails as soon as the step
does. A check fails unless a condition holds, and otherwise has no effect.

## Main results

* `mapM_eq_some_iff` — a traversal succeeds when its step does on each item
* `mapM_eq_some_filterMap` — then its results are those that a filter collects
* `guard_bind` — a check of what holds can be left out
-/

namespace DatalogStrata

variable {α β : Type} {f : α → Option β} {items : List α} {results : List β}

theorem mapM_eq_some_iff : items.mapM f = some results ↔
    List.Forall₂ (fun item result => f item = some result) items results := by
  induction items generalizing results with
  | nil => cases results <;> simp
  | cons item rest ih =>
    cases results with
    | nil => simp [Option.bind_eq_some_iff]
    | cons result more => simp [Option.bind_eq_some_iff, ih, List.forall₂_cons]

theorem exists_of_mapM_eq_some (mapped : items.mapM f = some results) {result : β}
    (mem : result ∈ results) : ∃ item ∈ items, f item = some result := by
  rw [mapM_eq_some_iff] at mapped
  induction mapped with
  | nil => cases mem
  | cons first _ ih =>
    rw [List.mem_cons] at mem
    obtain rfl | mem := mem
    · exact ⟨_, List.mem_cons_self, first⟩
    · obtain ⟨item, held, same⟩ := ih mem
      exact ⟨item, List.mem_cons_of_mem _ held, same⟩

/-- A traversal whose step fails on no item collects what a filter collects. -/
theorem mapM_eq_some_filterMap (succeeds : ∀ item ∈ items, ∃ result, f item = some result) :
    items.mapM f = some (items.filterMap f) := by
  induction items with
  | nil => rfl
  | cons item rest ih =>
    obtain ⟨result, read⟩ := succeeds item List.mem_cons_self
    have later := ih fun other member => succeeds other (List.mem_cons_of_mem item member)
    rw [List.mapM_cons, read, later, List.filterMap_cons_some read]
    rfl

/-- A check of what holds has no effect. -/
theorem guard_bind {condition : Prop} [Decidable condition] (holds : condition)
    (next : Unit → Option α) : (guard condition >>= next) = next () := by
  rw [guard, if_pos holds]
  rfl

end DatalogStrata
