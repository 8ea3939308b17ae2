import DatalogStrata.Proofs.Component.Change

/-!
# What a step of the search preserves

A step either follows the next edge of the innermost frame or leaves its vertex. Leaving hands
everything above the frame to the frame below, unless the low link says that nothing there leads
further down: then the top of the stack is a strongly connected component and is closed.

## Main results

* `Search.Segment.leaves`, `Search.Segment.returns`, `Search.Segment.inner` — why the segment of a
  frame whose low link is its own number is a component
* `Search.Invariant.step` — a step keeps the invariant
-/

namespace DatalogStrata

namespace Search

variable {V : Type} {graph : Graph V} {search : Search} {u v w : Nat}
variable {frame parent : Frame} {path : List Frame} {above below stack : List Nat}

/-! ## The path -/

/-- The invariant's first part does not look at the path. -/
theorem Sound.withFrames (sound : search.Sound graph) (frames : List Frame) :
    ({ search with frames := frames } : Search).Sound graph :=
  { sound with }

/-- Neither does what a frame has learned. -/
theorem Layout.withFrames (layout : Layout graph search path stack) (distinct : stack.Nodup)
    (frames : List Frame) : Layout graph { search with frames := frames } path stack :=
  layout.transport distinct (fun _ _ => Nat.le_refl _) (fun _ _ _ => rfl) (fun _ _ => rfl)
    fun _ _ known => known

/-- The innermost frame passes over an edge whose target is known. -/
theorem Layout.advance (layout : Layout graph search (frame :: path) stack)
    (found : graph.target? frame.vertex frame.next = some w)
    (known : search.Known (search.lowLinkOf frame.vertex) w) :
    Layout graph search ({ frame with next := frame.next + 1 } :: path) stack := by
  cases layout with
  | cons segment entered rest =>
    refine .cons ⟨?_, segment.reached, segment.low_le, segment.low_lt, segment.above_scanned⟩
      entered rest
    intro slot other before target
    rcases Nat.lt_succ_iff_lt_or_eq.mp before with earlier | rfl
    · exact segment.scanned earlier target
    · rw [found, Option.some_inj] at target
      exact target ▸ known

/-- Once the last slot has been passed, all targets of a frame's vertex are known. -/
theorem Segment.targets_known (segment : Segment graph search frame above)
    (done : graph.target? frame.vertex frame.next = none) (leads : w ∈ graph.targets frame.vertex) :
    search.Known (search.lowLinkOf frame.vertex) w := by
  obtain ⟨slot, found⟩ := List.mem_iff_getElem?.mp leads
  have before : slot < frame.next := by
    rw [← Graph.getElem?_targets, List.getElem?_eq_none_iff] at done
    exact Nat.lt_of_lt_of_le (List.getElem?_eq_some_iff.mp found).1 done
  exact segment.scanned before (graph.getElem?_targets _ _ ▸ found)

/-- A vertex that is left without closing its component falls to the frame below it. -/
theorem Layout.merge (layout : Layout graph search (frame :: parent :: path) stack)
    (done : graph.target? frame.vertex frame.next = none)
    (handed : search.lowLinkOf parent.vertex ≤ search.lowLinkOf frame.vertex)
    (lower : search.lowLinkOf frame.vertex < search.numberOf frame.vertex) :
    Layout graph search (parent :: path) stack := by
  cases layout with
  | @cons _ _ above _ segment entered rest =>
    cases rest with
    | @cons _ _ between below parentSegment parentEntered rest =>
      have leads : frame.vertex ∈ graph.targets parent.vertex := entered parent rfl
      have step : graph.ReachesAt parent.vertex frame.vertex := .single leads
      rw [← List.cons_append, ← List.append_assoc]
      refine .cons ⟨parentSegment.scanned, ?_, ?_, ?_, ?_⟩ parentEntered rest
      -- What the parent now owns was the frame's, is the frame's vertex, or was its own before.
      all_goals
        intro v
        rw [List.mem_append, List.mem_cons]
      · rintro (inside | rfl | old)
        · exact step.trans (segment.reached inside)
        · exact step
        · exact parentSegment.reached old
      · rintro (inside | rfl | old)
        · exact Nat.le_trans handed (segment.low_le inside)
        · exact handed
        · exact parentSegment.low_le old
      · rintro (inside | rfl | old)
        · exact segment.low_lt inside
        · exact lower
        · exact parentSegment.low_lt old
      · rintro w (inside | rfl | old) target
        · exact (segment.above_scanned inside target).mono handed
        · exact (segment.targets_known done target).mono handed
        · exact parentSegment.above_scanned old target

/-- A frame that was just opened has learned nothing yet. -/
theorem Segment.fresh (graph : Graph V) (search : Search) (v : Nat) :
    Segment graph search ⟨v, 0⟩ [] where
  scanned before := absurd before (Nat.not_lt_zero _)
  reached member := absurd member List.not_mem_nil
  low_le member := absurd member List.not_mem_nil
  low_lt member := absurd member List.not_mem_nil
  above_scanned member := absurd member List.not_mem_nil

/-! ## The component of a root -/

section Root

variable (segment : Segment graph search frame above)
include segment

/-- A frame reaches all of its segment. -/
theorem Segment.leaves : ∀ v ∈ above ++ [frame.vertex], graph.ReachesAt frame.vertex v := by
  intro v member
  rcases List.mem_append.mp member with inside | last
  · exact segment.reached inside
  · rw [List.mem_singleton.mp last]
    exact .refl

variable (sound : search.Sound graph) (whole : search.stack = above ++ frame.vertex :: below)
  (root : search.lowLinkOf frame.vertex = search.numberOf frame.vertex)
include sound whole root

/-- All of a root's segment reaches the root: a vertex that is not the root reaches one with a
smaller number, which is again in the segment. -/
theorem Segment.returns : ∀ v ∈ above ++ [frame.vertex], graph.ReachesAt v frame.vertex := by
  intro v
  induction number : search.numberOf v using Nat.strongRecOn generalizing v with
  | ind number ih =>
    subst number
    intro member
    rcases List.mem_append.mp member with inside | last
    · -- The low link names a vertex further down, but not below the root.
      obtain ⟨w, onStack, number, reach⟩ :=
        sound.low_reached ((sound.mem_segment_iff whole).mp member).1
      have smaller : search.numberOf w < search.numberOf v := number ▸ segment.low_lt inside
      have atLeast : search.numberOf frame.vertex ≤ search.numberOf w := by
        rw [number, ← root]
        exact segment.low_le inside
      exact reach.trans
        (ih _ smaller w rfl ((sound.mem_segment_iff whole).mpr ⟨onStack, atLeast⟩))
    · rw [List.mem_singleton.mp last]
      exact .refl

/-- No edge leaves a root's segment for another open vertex. -/
theorem Segment.inner (done : graph.target? frame.vertex frame.next = none) :
    ∀ v ∈ above ++ [frame.vertex], ∀ w ∈ graph.targets v,
      w ∈ above ++ [frame.vertex] ∨ search.Closed w := by
  intro v member w leads
  have known : search.Known (search.numberOf frame.vertex) w := by
    rw [← root]
    rcases List.mem_append.mp member with inside | last
    · exact segment.above_scanned inside leads
    · rw [List.mem_singleton.mp last] at leads
      exact segment.targets_known done leads
  exact known.symm.imp (sound.mem_segment_iff whole).mpr id

end Root

/-! ## Following an edge

The slot of the innermost frame has moved on, while what is known is still that of the frame
before: the target of the edge just passed decides what comes next. -/

/-- Entering a vertex leaves the segments as they are. -/
theorem Layout.enter (layout : Layout graph search path search.stack)
    (sound : search.Sound graph) (new : search.number[w]? = some none) :
    Layout graph (search.enter w) path search.stack := by
  have low := sound.lowLinkOf_enter (sound.lt_of_new new)
  have number := sound.numberOf_enter (sound.lt_of_new new)
  have same {v : Nat} (member : v ∈ search.stack) :
      (search.enter w).lowLinkOf v = search.lowLinkOf v := by
    rw [low, if_neg (sound.ne_of_new new member)]
  refine layout.transport sound.stack_nodup ?_ ?_ ?_ fun _ _ known => sound.known_enter new known
  · exact fun v member => Nat.le_of_eq (same member)
  · exact fun v member _ => same member
  · exact fun v member => by rw [number, if_neg (sound.ne_of_new new member)]

/-- Lowering the low link of a frame leaves the segments as they are. -/
theorem Layout.lower (layout : Layout graph search path search.stack)
    (sound : search.Sound graph) (member : v ∈ path.map Frame.vertex) (limit : Nat) :
    Layout graph (search.lower v limit) path search.stack := by
  have low := sound.lowLinkOf_lower (sound.stack_lt (layout.vertex_mem v member)) limit
  refine layout.transport sound.stack_nodup ?_ ?_ (fun _ _ => rfl) fun _ _ known => known
  · intro w _
    rw [low]
    split
    · rename_i same
      rw [same]
      exact Nat.min_le_right _ _
    · exact Nat.le_refl _
  · intro w _ missing
    have different : w ≠ v := by
      rintro rfl
      exact missing member
    rw [low, if_neg different]

section Follow

variable (sound : search.Sound graph)
  (layout : Layout graph search (frame :: path) search.stack)
  (frames : search.frames = { frame with next := frame.next + 1 } :: path)
  (found : graph.target? frame.vertex frame.next = some w)
include sound layout frames found

/-- A target without a number is entered, with a frame of its own. -/
theorem Sound.follow_new (new : search.number[w]? = some none) :
    (search.enter w).Invariant graph := by
  have onStack : frame.vertex ∈ search.stack := layout.vertex_mem _ List.mem_cons_self
  refine ⟨sound.enter new, ?_⟩
  have shape : (search.enter w).frames =
      ⟨w, 0⟩ :: { frame with next := frame.next + 1 } :: path := by rw [Search.enter, frames]
  rw [shape]
  refine .cons (Segment.fresh graph _ w) ?_
    ((layout.enter sound new).advance found ?_)
  · intro parent innermost
    rw [List.head?_cons, Option.mem_some_iff] at innermost
    subst innermost
    exact List.mem_of_getElem? ((graph.getElem?_targets _ _).trans found)
  · -- The new number is above all others, so it is not below the low link of the frame.
    have bound := sound.lt_of_new new
    refine Or.inr ⟨List.mem_cons_self, ?_⟩
    rw [sound.lowLinkOf_enter bound, if_neg (sound.ne_of_new new onStack),
      sound.numberOf_enter bound, if_pos rfl]
    exact Nat.le_trans (sound.low_le onStack) (Nat.le_of_lt (sound.numberOf_lt onStack))

/-- A target on the stack lowers the low link to its number. -/
theorem Sound.follow_open (member : w ∈ search.stack) :
    (search.lower frame.vertex (search.numberOf w)).Invariant graph := by
  have onStack : frame.vertex ∈ search.stack := layout.vertex_mem _ List.mem_cons_self
  have leads : w ∈ graph.targets frame.vertex :=
    List.mem_of_getElem? ((graph.getElem?_targets _ _).trans found)
  refine ⟨sound.lower onStack member (.single leads), ?_⟩
  rw [frames_lower, frames]
  refine (layout.lower sound List.mem_cons_self _).advance found (Or.inr ⟨member, ?_⟩)
  rw [sound.lowLinkOf_lower (sound.stack_lt onStack), if_pos rfl]
  exact Nat.min_le_left _ _

/-- A target in a completed component changes nothing. -/
theorem Sound.follow_closed (closed : search.Closed w) : search.Invariant graph :=
  ⟨sound, frames ▸ layout.advance found (Or.inl closed)⟩

/-- Whatever the target is, following the edge restores the invariant. -/
theorem Sound.follow (wellFormed : graph.WellFormed) :
    (search.follow frame.vertex w).Invariant graph := by
  have leads : w ∈ graph.targets frame.vertex :=
    List.mem_of_getElem? ((graph.getElem?_targets _ _).trans found)
  unfold Search.follow
  split
  case h_1 new => exact sound.follow_new layout frames found new
  case h_2 number entered =>
    rw [← numberOf_eq entered]
    split
    case isTrue marked =>
      exact sound.follow_open layout frames found (sound.isOnStack_iff.mp marked)
    case isFalse unmarked =>
      refine sound.follow_closed layout frames found ?_
      exact (sound.entered_iff.mp ⟨number, entered⟩).resolve_left
        (mt sound.isOnStack_iff.mpr unmarked)
  case h_3 missing =>
    -- Edges lead to vertices, so there is an entry for the target.
    rw [Array.getElem?_eq_none_iff, sound.number_size] at missing
    exact absurd (wellFormed.target_lt leads) (Nat.not_lt.mpr missing)

end Follow

/-! ## Leaving a vertex -/

theorem Layout.leads_from_parent
    (layout : Layout graph search (frame :: parent :: path) stack) :
    frame.vertex ∈ graph.targets parent.vertex := by
  cases layout with
  | cons segment entered rest => exact entered parent rfl

/-- The frame below another has a smaller number. -/
theorem Sound.numberOf_parent_lt (sound : search.Sound graph)
    (layout : Layout graph search (frame :: parent :: path) search.stack) :
    search.numberOf parent.vertex < search.numberOf frame.vertex := by
  generalize stack : search.stack = stack at layout
  cases layout with
  | cons segment entered rest =>
    have inBelow := rest.vertex_mem parent.vertex List.mem_cons_self
    refine (sound.mem_below_iff stack ?_).mp inBelow
    rw [stack]
    exact List.mem_append_right _ (List.mem_cons_of_mem _ inBelow)

section Leave

variable (sound : search.Sound graph)
  (layout : Layout graph search (frame :: path) search.stack)
include sound layout

/-- What a root tells the frame below it changes nothing there. -/
theorem Sound.report_root (frames : search.frames = path)
    (root : search.lowLinkOf frame.vertex = search.numberOf frame.vertex) :
    search.report frame.vertex = search := by
  unfold report
  split
  case h_1 parent rest shape =>
    rw [← frames, shape] at layout
    have member : parent.vertex ∈ search.stack :=
      layout.vertex_mem _ (List.mem_cons_of_mem _ List.mem_cons_self)
    -- The low link of a root is its number, which is above that of the frame below.
    apply lower_eq_self
    calc search.lowLinkOf parent.vertex
      _ ≤ search.numberOf parent.vertex := sound.low_le member
      _ ≤ search.numberOf frame.vertex := Nat.le_of_lt (sound.numberOf_parent_lt layout)
      _ = search.lowLinkOf frame.vertex := root.symm
  case h_2 => rfl

/-- A root closes its segment. -/
theorem Sound.close_root (frames : search.frames = path)
    (done : graph.target? frame.vertex frame.next = none)
    (root : search.lowLinkOf frame.vertex = search.numberOf frame.vertex) :
    (search.close frame.vertex).Invariant graph := by
  have distinct := sound.stack_nodup
  generalize stack : search.stack = stack at layout
  cases layout with
  | cons segment entered rest =>
    refine ⟨sound.close stack segment.leaves (segment.returns sound stack root)
      (segment.inner sound stack root done), ?_⟩
    rw [sound.close_eq stack]
    simp only [frames]
    rw [stack, List.nodup_append, List.nodup_cons] at distinct
    refine rest.transport distinct.2.1.2 (fun _ _ => Nat.le_refl _) (fun _ _ _ => rfl)
      (fun _ _ => rfl) fun bound v known => ?_
    have kept := sound.known_close stack known
    rwa [sound.close_eq stack] at kept

/-- A vertex that is no root has a frame below it, since the bottom of the stack reaches nothing
that was entered before. -/
theorem Sound.exists_parent
    (notRoot : search.lowLinkOf frame.vertex ≠ search.numberOf frame.vertex) :
    ∃ parent rest, path = parent :: rest := by
  have member := layout.vertex_mem frame.vertex List.mem_cons_self
  generalize stack : search.stack = stack at layout
  cases layout with
  | cons segment entered rest =>
    cases rest with
    | nil =>
      -- Nothing lies below the only frame, so its vertex has the least number on the stack.
      obtain ⟨w, onStack, number, -⟩ := sound.low_reached member
      have atLeast := ((sound.mem_segment_iff stack).mp (stack ▸ onStack)).2
      exact absurd (Nat.le_antisymm (sound.low_le member) (number ▸ atLeast)) notRoot
    | cons => exact ⟨_, _, rfl⟩

end Leave

section Merge

variable (sound : search.Sound graph)
  (layout : Layout graph search (frame :: parent :: path) search.stack)
include sound layout

/-- Telling the frame below leaves the low link of the vertex that is left. -/
theorem Sound.lowLinkOf_handed (v : Nat) :
    (search.lower parent.vertex (search.lowLinkOf frame.vertex)).lowLinkOf v =
      if v = parent.vertex then
        min (search.lowLinkOf frame.vertex) (search.lowLinkOf parent.vertex)
      else search.lowLinkOf v :=
  sound.lowLinkOf_lower (sound.stack_lt
    (layout.vertex_mem _ (List.mem_cons_of_mem _ List.mem_cons_self))) _ v

theorem Sound.vertex_ne_parent : frame.vertex ≠ parent.vertex := by
  intro same
  have smaller := sound.numberOf_parent_lt layout
  exact Nat.lt_irrefl _ (same ▸ smaller)

/-- A vertex that is no root is handed to the frame below it. -/
theorem Sound.report_merge (frames : search.frames = parent :: path)
    (done : graph.target? frame.vertex frame.next = none)
    (notRoot : search.lowLinkOf frame.vertex ≠ search.numberOf frame.vertex) :
    (search.lower parent.vertex (search.lowLinkOf frame.vertex)).Invariant graph := by
  have onStack := layout.vertex_mem frame.vertex List.mem_cons_self
  have parentMember : parent.vertex ∈ (frame :: parent :: path).map Frame.vertex :=
    List.mem_cons_of_mem _ List.mem_cons_self
  have different := sound.vertex_ne_parent layout
  have low := sound.lowLinkOf_handed layout
  obtain ⟨w, reached, number, reach⟩ := sound.low_reached onStack
  refine ⟨number ▸ sound.lower (layout.vertex_mem _ parentMember) reached
    (.head layout.leads_from_parent reach), ?_⟩
  rw [frames_lower, frames]
  refine (layout.lower sound parentMember _).merge done ?_ ?_
  · rw [low, low, if_pos rfl, if_neg different]
    exact Nat.min_le_left _ _
  · rw [low, if_neg different]
    exact Nat.lt_of_le_of_ne (sound.low_le onStack) notRoot

end Merge

/-- Leaving a vertex keeps the invariant, whether it closes a component or not. -/
theorem Sound.leave (sound : search.Sound graph)
    (layout : Layout graph search (frame :: path) search.stack) (frames : search.frames = path)
    (done : graph.target? frame.vertex frame.next = none) :
    ((search.report frame.vertex).leave frame.vertex).Invariant graph := by
  obtain ⟨number, entered⟩ :=
    sound.entered_iff.mpr (Or.inl (layout.vertex_mem frame.vertex List.mem_cons_self))
  by_cases root : search.lowLinkOf frame.vertex = search.numberOf frame.vertex
  · rw [sound.report_root layout frames root, Search.leave, if_pos]
    · exact sound.close_root layout frames done root
    · rw [entered, root, numberOf_eq entered]
  · obtain ⟨parent, rest, rfl⟩ := sound.exists_parent layout root
    have reported : search.report frame.vertex =
        search.lower parent.vertex (search.lowLinkOf frame.vertex) := by rw [report, frames]
    rw [reported, Search.leave, if_neg]
    · exact sound.report_merge layout frames done root
    · rw [number_lower, entered, sound.lowLinkOf_handed layout,
        if_neg (sound.vertex_ne_parent layout), Option.some_inj, Option.some_inj]
      exact fun same => root (same.symm.trans (numberOf_eq entered).symm)

/-- A step keeps the invariant. -/
theorem Invariant.step (inv : search.Invariant graph) (wellFormed : graph.WellFormed) :
    (step graph search).Invariant graph := by
  unfold Search.step
  split
  case h_1 => exact inv
  case h_2 frame path frames =>
    have layout : Layout graph search (frame :: path) search.stack := frames ▸ inv.layout
    have distinct := inv.sound.stack_nodup
    split
    case h_1 target found =>
      exact (inv.sound.withFrames _).follow (layout.withFrames distinct _) rfl found wellFormed
    case h_2 done =>
      exact (inv.sound.withFrames _).leave (layout.withFrames distinct _) rfl done

end Search

end DatalogStrata
