import Mathlib.Data.List.Induction
import Mathlib.Data.List.Nodup

/-!
# First occurrences

A list without what it repeats keeps each item where it occurs for the first time. So what is added
at the end counts only if it is new, and what has occurred can be mentioned again without effect.

## Main results

* `eraseDups_concat` — an item added at the end stays if it is new
* `eraseDups_flatMap_again` — an item that has occurred may be mentioned again
* `eraseDups_flatMap_congr` — what adds the same first occurrences may stand for each other
* `eraseDups_flatMap_own` — what is left of items that each repeat only themselves
* `eraseDups_of_nodup`, `eraseDups_append_of_mem` — distinct items stay as they are
* `eq_eraseDups_append` — a list that is lengthened unless it has what is added
* `flatMap_ite_eq` — what one of distinct items brings alone
-/

namespace DatalogStrata

variable {α : Type} [DecidableEq α]

/-- An item added at the end stays if it has not occurred before. -/
theorem eraseDups_concat (items : List α) (item : α) :
    (items ++ [item]).eraseDups =
      if item ∈ items.eraseDups then items.eraseDups else items.eraseDups ++ [item] := by
  rw [List.eraseDups_append]
  split
  · rename_i old
    simp [List.removeAll, List.mem_eraseDups.mp old]
  · rename_i new
    rw [List.mem_eraseDups] at new
    simp [List.removeAll, new, List.eraseDups_cons]

theorem nodup_eraseDups (items : List α) : items.eraseDups.Nodup := by
  induction items using List.reverseRecOn with
  | nil => exact List.nodup_nil
  | append_singleton items item ih =>
    rw [eraseDups_concat]
    split
    · exact ih
    · rename_i new
      exact List.nodup_append_comm.mpr (List.nodup_cons.mpr ⟨new, ih⟩)

/-- What is added at the end counts alike behind lists with the same first occurrences. -/
theorem eraseDups_append_congr {items others : List α} (same : items.eraseDups = others.eraseDups)
    (more : List α) : (items ++ more).eraseDups = (others ++ more).eraseDups := by
  have members (item : α) : item ∈ items ↔ item ∈ others := by
    rw [← List.mem_eraseDups, same, List.mem_eraseDups]
  have left : more.removeAll items = more.removeAll others := by
    refine List.filter_congr fun item _ => ?_
    simp [members]
  rw [List.eraseDups_append, List.eraseDups_append, same, left]

/-- An item that has occurred may be mentioned again behind each of the items that follow. -/
theorem eraseDups_flatMap_again {item : α} (more : List α) :
    ∀ items : List α, item ∈ items →
      (items ++ more.flatMap fun next => [next, item]).eraseDups = (items ++ more).eraseDups := by
  induction more with
  | nil => exact fun _ _ => rfl
  | cons next more ih =>
    intro items occurred
    have again : (items ++ [next] ++ [item]).eraseDups = (items ++ [next]).eraseDups := by
      rw [eraseDups_concat, if_pos (List.mem_eraseDups.mpr (List.mem_append_left _ occurred))]
    calc (items ++ (next :: more).flatMap fun next => [next, item]).eraseDups
      _ = (items ++ [next] ++ [item] ++ more.flatMap fun next => [next, item]).eraseDups := by simp
      _ = (items ++ [next] ++ [item] ++ more).eraseDups := ih _ (by simp)
      _ = (items ++ [next] ++ more).eraseDups := eraseDups_append_congr again more
      _ = (items ++ next :: more).eraseDups := by simp

/-- Lists that add the same first occurrences wherever they stand do so one after the other. -/
theorem eraseDups_flatMap_congr {β : Type} {bring other : β → List α}
    (same : ∀ b, ∀ items : List α, (items ++ bring b).eraseDups = (items ++ other b).eraseDups)
    (bringers : List β) : ∀ items : List α,
      (items ++ bringers.flatMap bring).eraseDups =
        (items ++ bringers.flatMap other).eraseDups := by
  induction bringers with
  | nil => exact fun _ => rfl
  | cons b rest ih =>
    intro items
    calc (items ++ (b :: rest).flatMap bring).eraseDups
      _ = (items ++ bring b ++ rest.flatMap bring).eraseDups := by simp
      _ = (items ++ other b ++ rest.flatMap bring).eraseDups :=
          eraseDups_append_congr (same b items) _
      _ = (items ++ other b ++ rest.flatMap other).eraseDups := ih _
      _ = (items ++ (b :: rest).flatMap other).eraseDups := by simp

/-- Of a list that repeats one item, this item is left. -/
theorem eraseDups_of_forall_eq {items : List α} {item : α} (only : ∀ other ∈ items, other = item) :
    items.eraseDups = if item ∈ items then [item] else [] := by
  cases items with
  | nil => simp
  | cons first rest =>
    obtain rfl := only first List.mem_cons_self
    have nothing : rest.filter (fun other => !other == first) = [] := by
      rw [List.filter_eq_nil_iff]
      intro other later
      simp [only other (List.mem_cons_of_mem _ later)]
    rw [List.eraseDups_cons, nothing, if_pos List.mem_cons_self, List.eraseDups_nil]

/-- When different items are each replaced by repetitions of themselves, those are left that are
replaced by one at least. -/
theorem eraseDups_flatMap_own {times : α → List α}
    (own : ∀ item, ∀ other ∈ times item, other = item) {items : List α} (distinct : items.Nodup) :
    (items.flatMap times).eraseDups = items.filter fun item => item ∈ times item := by
  induction items with
  | nil => simp
  | cons item items ih =>
    rw [List.nodup_cons] at distinct
    have apart : (items.flatMap times).removeAll (times item) = items.flatMap times := by
      rw [List.removeAll, List.filter_eq_self]
      intro other member
      obtain ⟨source, listed, repeats⟩ := List.mem_flatMap.mp member
      obtain rfl := own source other repeats
      simp only [Bool.not_eq_true', List.elem_eq_contains, List.contains_eq_mem,
        decide_eq_false_iff_not]
      intro repeated
      exact distinct.1 (own item other repeated ▸ listed)
    rw [List.flatMap_cons, List.eraseDups_append, apart, ih distinct.2,
      eraseDups_of_forall_eq (own item), List.filter_cons]
    by_cases kept : item ∈ times item <;> simp [kept]

/-- Distinct items stay as they are. -/
theorem eraseDups_of_nodup {items : List α} (distinct : items.Nodup) : items.eraseDups = items := by
  have own : ∀ item : α, ∀ other ∈ [item], other = item := fun _ _ => List.mem_singleton.mp
  simpa using eraseDups_flatMap_own own distinct

/-- What has been left out before may be left out. -/
theorem eraseDups_append_eraseDups (items more : List α) :
    (items.eraseDups ++ more).eraseDups = (items ++ more).eraseDups :=
  eraseDups_append_congr (eraseDups_of_nodup (nodup_eraseDups items)) more

/-- Repetitions of distinct items behind them add nothing. -/
theorem eraseDups_append_of_mem {items more : List α} (distinct : items.Nodup)
    (repeated : ∀ item ∈ more, item ∈ items) : (items ++ more).eraseDups = items := by
  have nothing : more.removeAll items = [] := by
    rw [List.removeAll, List.filter_eq_nil_iff]
    intro item member
    simpa using repeated item member
  rw [List.eraseDups_append, eraseDups_of_nodup distinct, nothing, List.eraseDups_nil,
    List.append_nil]

/-- A list without repetitions that either has all that is added or is lengthened by it. -/
theorem eq_eraseDups_append {items more longer : List α} (distinct : longer.Nodup)
    (either : (longer = items ∧ ∀ item ∈ more, item ∈ items) ∨ longer = items ++ more) :
    longer = (items ++ more).eraseDups := by
  rcases either with ⟨rfl, repeated⟩ | lengthened
  · rw [eraseDups_append_of_mem distinct repeated]
  · rw [← lengthened, eraseDups_of_nodup distinct]

/-- Of distinct items that are all left out but one, what this one brings is left. -/
theorem flatMap_ite_eq {β : Type} {items : List α} (distinct : items.Nodup)
    {item : α} (member : item ∈ items) (bring : α → List β) :
    (items.flatMap fun other => if other = item then bring other else []) = bring item := by
  obtain ⟨before, after, rfl⟩ := List.append_of_mem member
  have notBefore : item ∉ before := fun inside =>
    List.disjoint_of_nodup_append distinct inside List.mem_cons_self
  have notAfter : item ∉ after :=
    (List.nodup_cons.mp (List.nodup_append.mp distinct).2.1).1
  have nothing {part : List α} (missing : item ∉ part) :
      (part.flatMap fun other => if other = item then bring other else []) = [] := by
    rw [List.flatMap_eq_nil_iff]
    intro other inside
    refine if_neg ?_
    rintro rfl
    exact missing inside
  rw [List.flatMap_append, List.flatMap_cons, nothing notBefore, nothing notAfter, if_pos rfl,
    List.append_nil, List.nil_append]

end DatalogStrata
