import DatalogStrata.Proofs.Component.Invariant

/-!
# What the search changes

The search changes its state in three ways: it enters a vertex, it lowers a low link, and it closes
a component. For each of them it is said here what changes, vertex by vertex, and that the part of
the invariant that does not look at the path is kept.

## Main results

* `Search.Sound.enter` — a vertex without a number can be entered
* `Search.Sound.lower` — a low link can be lowered to the number of an open vertex that is reached
* `Search.Sound.close` — the top of the stack can be closed when it is strongly connected and no
  edge leaves it for another open vertex
-/

namespace DatalogStrata

namespace Search

variable {V : Type} {graph : Graph V} {search : Search} {u v w : Nat}

/-! ## Entering a vertex -/

section Bound

variable (bound : v < graph.vertices.size)
include bound

theorem Sound.numberOf_enter (sound : search.Sound graph) (w : Nat) :
    (search.enter v).numberOf w = if w = v then search.entered else search.numberOf w := by
  simp only [numberOf, enter, Array.getElem?_setIfInBounds, sound.number_size, bound, if_true,
    eq_comm (a := v)]
  split <;> rfl

theorem Sound.lowLinkOf_enter (sound : search.Sound graph) (w : Nat) :
    (search.enter v).lowLinkOf w = if w = v then search.entered else search.lowLinkOf w := by
  simp only [lowLinkOf, enter, Array.getElem?_setIfInBounds, sound.lowLink_size, bound, if_true,
    eq_comm (a := v)]
  split <;> rfl

theorem Sound.isOnStack_enter (sound : search.Sound graph) (w : Nat) :
    (search.enter v).isOnStack w = if w = v then true else search.isOnStack w := by
  simp only [isOnStack, enter, Array.getElem?_setIfInBounds, sound.onStack_size, bound, if_true,
    eq_comm (a := v)]
  split <;> rfl

theorem Sound.entered_enter (sound : search.Sound graph) {w : Nat} :
    (search.enter v).Entered w ↔ w = v ∨ search.Entered w := by
  simp only [Entered, enter, Array.getElem?_setIfInBounds, sound.number_size, bound, if_true,
    eq_comm (a := v)]
  split
  · rename_i same
    simp [same]
  · rename_i different
    simp [different]

end Bound

section Enter

variable (sound : search.Sound graph) (new : search.number[v]? = some none)
include sound new

theorem Sound.lt_of_new : v < graph.vertices.size := by
  rw [← sound.number_size]
  exact (Array.getElem?_eq_some_iff.mp new).1

omit sound in
theorem not_entered_of_new : ¬ search.Entered v := by
  rintro ⟨number, found⟩
  rw [new] at found
  exact Option.some_ne_none number (Option.some_inj.mp found).symm

theorem Sound.ne_of_new (member : w ∈ search.stack) : w ≠ v := by
  rintro rfl
  exact not_entered_of_new new (sound.entered_iff.mpr (Or.inl member))

/-- Entering a vertex forgets nothing that is known. -/
theorem Sound.known_enter {bound : Nat} (known : search.Known bound w) :
    (search.enter v).Known bound w := by
  refine known.imp id fun ⟨member, above⟩ => ⟨List.mem_cons_of_mem v member, ?_⟩
  rwa [sound.numberOf_enter (sound.lt_of_new new), if_neg (sound.ne_of_new new member)]

/-- A vertex that has not been entered can be entered. -/
theorem Sound.enter : (search.enter v).Sound graph := by
  have bound := sound.lt_of_new new
  have number := sound.numberOf_enter bound
  have low := sound.lowLinkOf_enter bound
  have other {w : Nat} (member : w ∈ search.stack) : w ≠ v := sound.ne_of_new new member
  exact
    { number_size := Array.size_setIfInBounds.trans sound.number_size
      lowLink_size := Array.size_setIfInBounds.trans sound.lowLink_size
      onStack_size := Array.size_setIfInBounds.trans sound.onStack_size
      isOnStack_iff := by
        intro w
        rw [sound.isOnStack_enter bound]
        split
        · rename_i same
          simp [Search.enter, same]
        · rename_i different
          simp [Search.enter, different, sound.isOnStack_iff]
      descending := by
        refine List.pairwise_cons.mpr ⟨?_, ?_⟩
        · intro w member
          -- The new number is greater than all that have been given.
          rw [number, number, if_pos rfl, if_neg (other member)]
          exact sound.numberOf_lt member
        · refine sound.descending.imp_of_mem ?_
          intro a b inA inB smaller
          rwa [number, number, if_neg (other inA), if_neg (other inB)]
      numberOf_lt := by
        intro w member
        rw [number]
        split
        · exact Nat.lt_succ_self _
        · rename_i different
          exact Nat.lt_succ_of_lt
            (sound.numberOf_lt ((List.mem_cons.mp member).resolve_left different))
      entered_iff := by
        intro w
        rw [sound.entered_enter bound, sound.entered_iff, ← or_assoc]
        exact or_congr_left List.mem_cons.symm
      not_closed := by
        intro w member closed
        rcases List.mem_cons.mp member with rfl | member
        · exact not_entered_of_new new (sound.entered_iff.mpr (Or.inr closed))
        · exact sound.not_closed member closed
      closed_targets := sound.closed_targets
      low_le := by
        intro w member
        rw [number, low]
        split
        · exact Nat.le_refl _
        · rename_i different
          exact sound.low_le ((List.mem_cons.mp member).resolve_left different)
      low_reached := by
        intro w member
        by_cases same : w = v
        · subst same
          exact ⟨w, List.mem_cons_self, by rw [number, low, if_pos rfl, if_pos rfl], .refl⟩
        · -- The vertex that a low link names is on the stack, so it is not the new one.
          have inside := (List.mem_cons.mp member).resolve_left same
          obtain ⟨x, inStack, reached, reach⟩ := sound.low_reached inside
          refine ⟨x, List.mem_cons_of_mem _ inStack, ?_, reach⟩
          rwa [number, low, if_neg (other inStack), if_neg same]
      component_nonempty := sound.component_nonempty
      component_nodup := sound.component_nodup
      component_iff := sound.component_iff
      ordered := sound.ordered }

end Enter

/-! ## Lowering a low link -/

theorem Sound.lowLinkOf_lower (sound : search.Sound graph) (bound : v < graph.vertices.size)
    (limit w : Nat) :
    (search.lower v limit).lowLinkOf w =
      if w = v then min limit (search.lowLinkOf v) else search.lowLinkOf w := by
  have inside : v < search.lowLink.size := sound.lowLink_size ▸ bound
  simp only [lowLinkOf, lower, Array.getElem?_modify, eq_comm (a := v)]
  split
  · rename_i same
    subst same
    simp [inside]
  · rfl

/-- A limit that is not below the low link changes nothing. -/
theorem lower_eq_self {limit : Nat} (above : search.lowLinkOf v ≤ limit) :
    search.lower v limit = search := by
  have same : search.lowLink.modify v (min limit) = search.lowLink := by
    apply Array.ext_getElem?
    intro i
    rw [Array.getElem?_modify]
    split
    · rename_i here
      subst here
      cases found : search.lowLink[v]? with
      | none => rfl
      | some value =>
        rw [lowLinkOf, found, Option.getD_some] at above
        rw [Option.map_some, Nat.min_eq_right above]
    · rfl
  rw [lower, same]

/-- A low link can be lowered to the number of a vertex on the stack that is reached. -/
theorem Sound.lower (sound : search.Sound graph) (member : v ∈ search.stack)
    (inStack : w ∈ search.stack) (reach : graph.ReachesAt v w) :
    (search.lower v (search.numberOf w)).Sound graph := by
  have low := sound.lowLinkOf_lower (sound.stack_lt member) (search.numberOf w)
  exact
    { sound with
      lowLink_size := Array.size_modify.trans sound.lowLink_size
      low_le := by
        intro x inside
        rw [low]
        split
        · rename_i same
          subst same
          exact Nat.le_trans (Nat.min_le_right _ _) (sound.low_le inside)
        · exact sound.low_le inside
      low_reached := by
        intro x inside
        rw [low]
        split
        · rename_i same
          subst same
          rcases Nat.le_total (search.numberOf w) (search.lowLinkOf x) with lower | kept
          · rw [Nat.min_eq_left lower]
            exact ⟨w, inStack, rfl, reach⟩
          · rw [Nat.min_eq_right kept]
            exact sound.low_reached inside
        · exact sound.low_reached inside }

/-! ## Closing a component -/

theorem popThrough_append {above below : List Nat} (fresh : v ∉ above) :
    popThrough v (above ++ v :: below) = (above ++ [v], below) := by
  induction above with
  | nil => simp [popThrough]
  | cons first rest ih =>
    rw [List.mem_cons, not_or] at fresh
    rw [List.cons_append, popThrough, if_neg (Ne.symm fresh.1), ih fresh.2]
    rfl

theorem getElem?_unmark (marks : Array Bool) (members : List Nat) (w : Nat) :
    ((members.foldl (fun marks member => marks.setIfInBounds member false) marks)[w]?.getD false)
      = (marks[w]?.getD false && decide (w ∉ members)) := by
  induction members generalizing marks with
  | nil => simp
  | cons first rest ih =>
    rw [List.foldl_cons, ih, Array.getElem?_setIfInBounds]
    by_cases same : first = w
    · subst same
      rw [if_pos rfl]
      split <;> simp
    · rw [if_neg same]
      simp [Ne.symm same]

theorem size_unmark (marks : Array Bool) (members : List Nat) :
    (members.foldl (fun marks member => marks.setIfInBounds member false) marks).size =
      marks.size := by
  induction members generalizing marks with
  | nil => rfl
  | cons first rest ih => rw [List.foldl_cons, ih, Array.size_setIfInBounds]

section Close

variable {above below : List Nat} (sound : search.Sound graph)
  (stack : search.stack = above ++ v :: below)
include sound stack

theorem Sound.not_mem_above : v ∉ above := by
  have distinct := sound.stack_nodup
  rw [stack, List.nodup_append] at distinct
  exact fun inside => distinct.2.2 v inside v List.mem_cons_self rfl

theorem Sound.close_eq : search.close v =
    { search with
      onStack := (above ++ [v]).foldl (fun marks member => marks.setIfInBounds member false)
        search.onStack
      stack := below
      components := search.components.push (above ++ [v]) } := by
  rw [close, stack, popThrough_append (sound.not_mem_above stack)]

omit sound in
theorem mem_stack_iff : w ∈ search.stack ↔ w ∈ above ++ [v] ∨ w ∈ below := by
  rw [stack, List.append_cons, List.mem_append]

theorem Sound.not_mem_below (inside : w ∈ above ++ [v]) : w ∉ below := by
  have distinct := sound.stack_nodup
  rw [stack, List.append_cons, List.nodup_append] at distinct
  exact fun inBelow => distinct.2.2 w inside w inBelow rfl

/-- Below a vertex on the stack are just the numbers below its own. -/
theorem Sound.mem_below_iff (member : w ∈ search.stack) :
    w ∈ below ↔ search.numberOf w < search.numberOf v := by
  have sorted := sound.descending
  rw [stack, List.pairwise_append, List.pairwise_cons] at sorted
  rw [stack, List.mem_append, List.mem_cons] at member
  constructor
  · exact sorted.2.1.1 w
  · intro smaller
    rcases member with inAbove | rfl | inBelow
    · exact absurd (sorted.2.2 w inAbove v List.mem_cons_self) (Nat.lt_asymm smaller)
    · exact absurd smaller (Nat.lt_irrefl _)
    · exact inBelow

/-- At and above a vertex on the stack are the numbers from its own on. -/
theorem Sound.mem_segment_iff :
    w ∈ above ++ [v] ↔ w ∈ search.stack ∧ search.numberOf v ≤ search.numberOf w := by
  constructor
  · intro inside
    have member := (mem_stack_iff stack).mpr (Or.inl inside)
    refine ⟨member, Nat.le_of_not_lt fun smaller => ?_⟩
    exact sound.not_mem_below stack inside ((sound.mem_below_iff stack member).mpr smaller)
  · rintro ⟨member, atLeast⟩
    have notBelow := mt (sound.mem_below_iff stack member).mp (Nat.not_lt.mpr atLeast)
    exact ((mem_stack_iff stack).mp member).resolve_right notBelow

theorem Sound.closed_close : (search.close v).Closed w ↔ search.Closed w ∨ w ∈ above ++ [v] := by
  simp only [Closed, sound.close_eq stack, Array.mem_push]
  constructor
  · rintro ⟨component, old | rfl, inside⟩
    · exact Or.inl ⟨component, old, inside⟩
    · exact Or.inr inside
  · rintro (⟨component, old, inside⟩ | inside)
    · exact ⟨component, Or.inl old, inside⟩
    · exact ⟨_, Or.inr rfl, inside⟩

/-- What is known stays known: what leaves the stack is closed. -/
theorem Sound.known_close {bound : Nat} (known : search.Known bound w) :
    (search.close v).Known bound w := by
  rw [Known, sound.closed_close stack]
  rcases known with closed | ⟨member, above⟩
  · exact Or.inl (Or.inl closed)
  · rcases (mem_stack_iff stack).mp member with inside | inBelow
    · exact Or.inl (Or.inr inside)
    · refine Or.inr ⟨?_, ?_⟩
      · rw [sound.close_eq stack]
        exact inBelow
      · rw [sound.close_eq stack]
        exact above

/-- What stays on the stack is what is marked as being on it. -/
theorem Sound.isOnStack_close : (search.close v).isOnStack w = true ↔ w ∈ below := by
  rw [isOnStack, sound.close_eq stack, getElem?_unmark, Bool.and_eq_true, decide_eq_true_eq]
  refine (and_congr_left' sound.isOnStack_iff).trans ?_
  rw [mem_stack_iff stack]
  constructor
  · exact fun both => both.1.resolve_left both.2
  · exact fun inBelow => ⟨Or.inr inBelow, fun inside => sound.not_mem_below stack inside inBelow⟩

theorem Sound.entered_close :
    (search.close v).Entered w ↔ w ∈ below ∨ (search.close v).Closed w := by
  have before : (search.close v).Entered w ↔ search.Entered w := by
    rw [sound.close_eq stack]
    rfl
  -- What is closed now was on the stack above what stays there.
  rw [before, sound.entered_iff, sound.closed_close stack, mem_stack_iff stack]
  rw [or_comm (a := w ∈ above ++ [v]), or_assoc, or_comm (a := w ∈ above ++ [v])]

/-- The vertex whose number the low link is stands no higher than the vertex itself, so below the
component it stays on the stack. -/
theorem Sound.low_reached_below (member : w ∈ below) :
    ∃ x ∈ below, search.numberOf x = search.lowLinkOf w ∧ graph.ReachesAt w x := by
  have inStack := (mem_stack_iff stack).mpr (Or.inr member)
  obtain ⟨x, onStack, number, reach⟩ := sound.low_reached inStack
  refine ⟨x, (sound.mem_below_iff stack onStack).mpr ?_, number, reach⟩
  calc search.numberOf x
    _ = search.lowLinkOf w := number
    _ ≤ search.numberOf w := sound.low_le inStack
    _ < search.numberOf v := (sound.mem_below_iff stack inStack).mp member

theorem Sound.mem_components_close {component : List Nat} :
    component ∈ (search.close v).components ↔
      component ∈ search.components ∨ component = above ++ [v] := by
  rw [sound.close_eq stack]
  exact Array.mem_push

/-- What is closed before does not reach what is closed now. -/
theorem Sound.ordered_close : (search.close v).components.toList.Pairwise fun earlier later =>
    ∀ v ∈ earlier, ∀ w ∈ later, ¬ graph.ReachesAt v w := by
  rw [sound.close_eq stack, Array.toList_push, List.pairwise_append]
  refine ⟨sound.ordered, List.pairwise_singleton _ _, ?_⟩
  intro earlier member later last u inEarlier w inLater reach
  rw [List.mem_singleton.mp last] at inLater
  have gone := sound.closed_reaches ⟨earlier, Array.mem_toList_iff.mp member, inEarlier⟩ reach
  exact sound.not_closed ((sound.mem_segment_iff stack).mp inLater).1 gone

variable (leaves : ∀ w ∈ above ++ [v], graph.ReachesAt v w)
  (returns : ∀ w ∈ above ++ [v], graph.ReachesAt w v)
  (inner : ∀ u ∈ above ++ [v], ∀ w ∈ graph.targets u, w ∈ above ++ [v] ∨ search.Closed w)
include leaves returns inner

/-- The top of the stack is what a vertex reaches and is reached from. -/
theorem Sound.mem_segment_iff_reaches (member : u ∈ above ++ [v]) :
    w ∈ above ++ [v] ↔ graph.ReachesAt u w ∧ graph.ReachesAt w u := by
  constructor
  · intro inside
    exact ⟨(returns u member).trans (leaves w inside), (returns w inside).trans (leaves u member)⟩
  · rintro ⟨reach, back⟩
    -- A path stays in the segment until it comes to a closed component, which it never leaves.
    have kept : w ∈ above ++ [v] ∨ search.Closed w := by
      clear back
      induction reach with
      | refl => exact Or.inl member
      | tail _ leads ih =>
        rcases ih with inside | closed
        · exact inner _ inside _ leads
        · exact Or.inr (sound.closed_targets closed leads)
    refine kept.resolve_right fun closed => ?_
    have onStack := ((sound.mem_segment_iff stack).mp member).1
    exact sound.not_closed onStack (sound.closed_reaches closed back)

/-- The top of the stack can be closed when it is a component that no edge leaves for another
open vertex. -/
theorem Sound.close : (search.close v).Sound graph := by
  have inStack {w : Nat} (member : w ∈ below) : w ∈ search.stack :=
    (mem_stack_iff stack).mpr (Or.inr member)
  have left : (search.close v).stack = below := by rw [sound.close_eq stack]
  have closed {w : Nat} := sound.closed_close stack (w := w)
  have sorted := sound.descending
  have distinct := sound.stack_nodup
  rw [stack, List.append_cons, List.pairwise_append] at sorted
  rw [stack, List.append_cons, List.nodup_append] at distinct
  exact
    { number_size := by rw [sound.close_eq stack]; exact sound.number_size
      lowLink_size := by rw [sound.close_eq stack]; exact sound.lowLink_size
      onStack_size := by
        rw [sound.close_eq stack, size_unmark]
        exact sound.onStack_size
      isOnStack_iff := by
        rw [left]
        exact sound.isOnStack_close stack
      descending := by
        rw [sound.close_eq stack]
        exact sorted.2.1
      numberOf_lt := by
        intro w member
        rw [sound.close_eq stack] at member ⊢
        exact sound.numberOf_lt (inStack member)
      entered_iff := by
        rw [left]
        exact sound.entered_close stack
      not_closed := by
        intro w member
        rw [left] at member
        rw [closed, not_or]
        exact ⟨sound.not_closed (inStack member),
          fun inside => sound.not_mem_below stack inside member⟩
      closed_targets := by
        -- What is closed now leads to itself or to what was closed before.
        intro u w leaving leads
        rw [closed] at leaving ⊢
        rcases leaving with old | inside
        · exact Or.inl (sound.closed_targets old leads)
        · exact (inner u inside w leads).symm
      low_le := by
        intro w member
        rw [sound.close_eq stack] at member ⊢
        exact sound.low_le (inStack member)
      low_reached := by
        intro w member
        rw [sound.close_eq stack] at member ⊢
        exact sound.low_reached_below stack member
      component_nonempty := by
        intro component member
        rcases (sound.mem_components_close stack).mp member with old | rfl
        · exact sound.component_nonempty old
        · exact List.append_ne_nil_of_right_ne_nil above (List.cons_ne_nil v [])
      component_nodup := by
        intro component member
        rcases (sound.mem_components_close stack).mp member with old | rfl
        · exact sound.component_nodup old
        · exact distinct.1
      component_iff := by
        intro component u w member inside
        rcases (sound.mem_components_close stack).mp member with old | rfl
        · exact sound.component_iff old inside
        · exact sound.mem_segment_iff_reaches stack leaves returns inner inside
      ordered := sound.ordered_close stack }

end Close

end Search

end DatalogStrata
