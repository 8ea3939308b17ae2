import DatalogStrata.Component.Basic
import Mathlib.Data.List.Basic

/-!
# Members in declaration order

The members of a component are kept in ascending order without repetition. Two things rest on
this: a member can be found by halving, and the member that stands first is the least one.

## Main definitions

* `Ascending` — a list of relations in strictly ascending order

## Main results

* `RelationId.sort_ascending` — sorting distinct relations puts them in ascending order
* `halvingSearch_iff` — halving finds exactly what stands between its bounds
* `Component.contains_iff` — a component contains exactly its members
* `Component.firstDeclared_le` — no member is declared before the first one
-/

namespace DatalogStrata

namespace RelationId

variable {a b : RelationId}

theorem le_iff : a ≤ b ↔ a.index ≤ b.index := Iff.rfl

theorem ext_index (same : a.index = b.index) : a = b := by
  cases a
  cases b
  exact congrArg RelationId.mk same

theorem lt_of_le_of_ne (le : a ≤ b) (different : a ≠ b) : a < b :=
  Nat.lt_of_le_of_ne le fun same => different (ext_index same)

end RelationId

/-- Relations in strictly ascending order. -/
def Ascending (relations : List RelationId) : Prop :=
  relations.Pairwise (· < ·)

namespace RelationId

variable {relations : List RelationId} {relation : RelationId}

theorem sort_perm (relations : List RelationId) : (sort relations).Perm relations :=
  List.mergeSort_perm relations _

theorem mem_sort : relation ∈ sort relations ↔ relation ∈ relations :=
  (sort_perm relations).mem_iff

/-- Sorting puts relations in weakly ascending order. -/
theorem sort_sorted (relations : List RelationId) : (sort relations).Pairwise (· ≤ ·) := by
  have transitive : ∀ a b c : RelationId,
      decide (a ≤ b) = true → decide (b ≤ c) = true → decide (a ≤ c) = true := by
    simp only [decide_eq_true_eq, le_iff]
    omega
  have total : ∀ a b : RelationId, (decide (a ≤ b) || decide (b ≤ a)) = true := by
    simp only [Bool.or_eq_true, decide_eq_true_eq, le_iff]
    omega
  exact (List.pairwise_mergeSort transitive total relations).imp of_decide_eq_true

/-- Sorting distinct relations puts them in strictly ascending order. -/
theorem sort_ascending (distinct : relations.Nodup) : Ascending (sort relations) := by
  have nodup : (sort relations).Nodup := (sort_perm relations).nodup_iff.mpr distinct
  exact (sort_sorted relations).imp₂ (fun _ _ => lt_of_le_of_ne) nodup

end RelationId

theorem Ascending.nodup {relations : List RelationId} (ascending : Ascending relations) :
    relations.Nodup := by
  apply ascending.imp
  rintro a _ smaller rfl
  exact Nat.lt_irrefl _ smaller

/-- Relations in ascending order are known by which they are. -/
theorem Ascending.eq_of_mem_iff {first second : List RelationId} (ascending : Ascending first)
    (ascendingSecond : Ascending second) (same : ∀ v, v ∈ first ↔ v ∈ second) :
    first = second := by
  have perm : first.Perm second :=
    (List.perm_ext_iff_of_nodup ascending.nodup ascendingSecond.nodup).mpr same
  refine perm.eq_of_pairwise ?_ ascending ascendingSecond
  intro a b _ _ less more
  exact absurd less (Nat.lt_asymm more)

/-! ## Search by halving -/

/-- Halving compares the value in the middle and goes on in one half. -/
theorem halvingSearch_step {values : Array RelationId} {wanted value : RelationId}
    {low high : Nat} (range : low < high) (found : values[(low + high) / 2]? = some value) :
    halvingSearch values wanted low high =
      if value = wanted then true
      else if value < wanted then halvingSearch values wanted ((low + high) / 2 + 1) high
      else halvingSearch values wanted low ((low + high) / 2) := by
  rw [halvingSearch, if_pos range]
  simp only [found]

/-- In an ascending array, halving finds a value exactly when it stands between the bounds. -/
theorem halvingSearch_iff {values : Array RelationId} (ascending : Ascending values.toList)
    (wanted : RelationId) {low high : Nat} (bound : high ≤ values.size) :
    halvingSearch values wanted low high = true ↔
      ∃ place, low ≤ place ∧ place < high ∧ values[place]? = some wanted := by
  have smaller {i j : Nat} {a b : RelationId} (before : i < j) (atFirst : values[i]? = some a)
      (atSecond : values[j]? = some b) : a < b := by
    obtain ⟨firstBound, rfl⟩ := Array.getElem?_eq_some_iff.mp atFirst
    obtain ⟨secondBound, rfl⟩ := Array.getElem?_eq_some_iff.mp atSecond
    exact List.pairwise_iff_getElem.mp ascending i j firstBound secondBound before
  induction low, high using halvingSearch.induct values wanted with
  | case1 low high range middle found =>
    rw [halvingSearch_step range found, if_pos rfl]
    exact iff_of_true rfl ⟨middle, by omega, by omega, found⟩
  | case2 low high range middle value found other less ih =>
    rw [halvingSearch_step range found, if_neg other, if_pos less]
    refine (ih bound).trans ?_
    constructor
    · rintro ⟨place, above, below, placed⟩
      exact ⟨place, by omega, below, placed⟩
    · rintro ⟨place, above, below, placed⟩
      refine ⟨place, ?_, below, placed⟩
      -- Up to the middle everything is at most the value there, which is too small.
      by_contra outside
      rcases Nat.lt_or_eq_of_le (show place ≤ middle by omega) with before | rfl
      · exact Nat.lt_asymm less (smaller before placed found)
      · exact other (Option.some_inj.mp (found.symm.trans placed))
  | case3 low high range middle value found other more ih =>
    rw [halvingSearch_step range found, if_neg other, if_neg more]
    refine (ih (by omega)).trans ?_
    constructor
    · rintro ⟨place, above, below, placed⟩
      exact ⟨place, above, by omega, placed⟩
    · rintro ⟨place, above, below, placed⟩
      refine ⟨place, above, ?_, placed⟩
      -- From the middle on everything is at least the value there, which is too large.
      by_contra outside
      rcases Nat.lt_or_eq_of_le (show middle ≤ place by omega) with after | rfl
      · exact more (smaller after found placed)
      · exact other (Option.some_inj.mp (found.symm.trans placed))
  | case4 low high range middle missing =>
    -- The middle of a range inside the array cannot be missing.
    have outside := Array.getElem?_eq_none_iff.mp missing
    omega
  | case5 low high empty =>
    rw [halvingSearch, if_neg empty]
    simp only [Bool.false_eq_true, false_iff]
    rintro ⟨place, above, below, -⟩
    omega

namespace Component

variable {component : Component} {relation : RelationId}

/-- A component contains exactly its members. -/
theorem contains_iff (ascending : Ascending component.members.toList) :
    component.contains relation = true ↔ relation ∈ component.members := by
  rw [contains, halvingSearch_iff ascending relation (Nat.le_refl _)]
  constructor
  · rintro ⟨place, -, -, placed⟩
    exact Array.mem_of_getElem? placed
  · intro member
    obtain ⟨place, placed⟩ := Array.mem_iff_getElem?.mp member
    exact ⟨place, Nat.zero_le _, (Array.getElem?_eq_some_iff.mp placed).1, placed⟩

theorem firstDeclared_mem (nonempty : component.members ≠ #[]) :
    component.firstDeclared ∈ component.members := by
  have bound : 0 < component.members.size := Array.size_pos_iff.mpr nonempty
  rw [firstDeclared, Array.getElem?_eq_getElem bound, Option.getD_some]
  exact Array.getElem_mem bound

/-- No member is declared before the first one. -/
theorem firstDeclared_le (ascending : Ascending component.members.toList)
    (member : relation ∈ component.members) : component.firstDeclared ≤ relation := by
  obtain ⟨⟨members⟩, recursive, negativeEdges⟩ := component
  cases members with
  | nil => exact absurd member (Array.not_mem_empty relation)
  | cons first rest =>
    rcases List.mem_cons.mp (Array.mem_toList_iff.mpr member) with rfl | later
    · exact Nat.le_refl _
    · exact Nat.le_of_lt ((List.pairwise_cons.mp ascending).1 relation later)

end Component

end DatalogStrata
