import DatalogStrata.Proofs.Component.Decomposition
import DatalogStrata.Proofs.Component.Recursion
import DatalogStrata.Proofs.Graph.FirstInsertion

/-!
# The recursion unwound

The search with a path of frames does what the recursive search does. Each frame is a call that has
not returned: its slot says how many of its edges have been followed, so following the rest of
them is what remains of the call. The two states are related by the labels of positions. They keep
step with each other edge by edge, except that a vertex that is left hands its low link to the
frame below before it closes its component, and a call hands it on after that. Neither looks at
what the other one changes, so it comes to the same.

The relation says nothing of the path. What the path is needed for, above all that the vertex of
a frame is on the stack and differs from that of the frame below, is in the invariant of the
search.

## Main definitions

* `Graph.Labels` — a position and its label
* `Search.Mirrors` — the state of a search tells that of a recursive one
* `Search.Unwinds` — a run of steps does what is left of a call

## Main results

* `Search.popThrough_labels` — both take the same component off the stack
* `Search.Mirrors.leave_child` — leaving a vertex is returning from its call
* `Search.unwinds` — a run of steps follows the edges that a frame has left
* `search_as_recursion` — both searches find the same components in the same order
-/

namespace DatalogStrata

namespace Graph

variable {V : Type} {graph : Graph V}

/-- A position holds a label. -/
def Labels (graph : Graph V) (position : Nat) (label : V) : Prop :=
  graph.vertices[position]? = some label

variable {p q : Nat} {v w : V} {positions : List Nat} {labels : List V}

theorem Labels.lt (atP : graph.Labels p v) : p < graph.vertices.size :=
  (Array.getElem?_eq_some_iff.mp atP).1

theorem WellFormed.labels_eq_iff (wellFormed : graph.WellFormed) (atP : graph.Labels p v)
    (atQ : graph.Labels q w) : p = q ↔ v = w := by
  constructor
  · rintro rfl
    exact Option.some_inj.mp (atP.symm.trans atQ)
  · rintro rfl
    exact wellFormed.position_unique atP atQ

theorem WellFormed.mem_labels_iff (wellFormed : graph.WellFormed) (atP : graph.Labels p v)
    (labelled : List.Forall₂ graph.Labels positions labels) : p ∈ positions ↔ v ∈ labels := by
  induction labelled with
  | nil => simp
  | cons atFirst _ ih => rw [List.mem_cons, List.mem_cons, wellFormed.labels_eq_iff atP atFirst, ih]

/-- The labels of positions, one for each. -/
theorem map_eq_of_labels (labelled : List.Forall₂ graph.Labels positions labels) :
    positions.map (graph.vertices[·]?) = labels.map some := by
  induction labelled with
  | nil => rfl
  | cons atFirst _ ih => rw [List.map_cons, List.map_cons, ih, atFirst]

theorem filterMap_eq_of_labels (labelled : List.Forall₂ graph.Labels positions labels) :
    positions.filterMap (graph.vertices[·]?) = labels := by
  induction labelled with
  | nil => rfl
  | cons atFirst _ ih => rw [List.filterMap_cons, atFirst, ih]

/-- What is read alike off positions and off their labels is read alike off lists of them. -/
theorem map_eq_of_all_labels {α : Type} {read : List Nat → α} {readLabels : List V → α}
    (alike : ∀ {positions labels}, List.Forall₂ graph.Labels positions labels →
      read positions = readLabels labels)
    {found : List (List Nat)} {told : List (List V)}
    (labelled : List.Forall₂ (List.Forall₂ graph.Labels) found told) :
    found.map read = told.map readLabels := by
  induction labelled with
  | nil => rfl
  | cons first _ ih => rw [List.map_cons, List.map_cons, ih, alike first]

theorem labels_filterMap (bound : ∀ p ∈ positions, p < graph.vertices.size) :
    List.Forall₂ graph.Labels positions (positions.filterMap (graph.vertices[·]?)) := by
  induction positions with
  | nil => exact .nil
  | cons p rest ih =>
    have atP := Array.getElem?_eq_getElem (bound p List.mem_cons_self)
    rw [List.filterMap_cons, atP]
    exact .cons atP (ih fun q later => bound q (List.mem_cons_of_mem p later))

/-- The vertices are the labels of all positions in order. -/
theorem labels_range (graph : Graph V) :
    List.Forall₂ graph.Labels (List.range graph.vertexCount) graph.vertices.toList := by
  rw [List.forall₂_iff_get]
  refine ⟨by simp [vertexCount], fun i bound _ => ?_⟩
  simp [Labels]

/-- The successors of a label are the labels of the targets of its position. -/
theorem WellFormed.labels_successors [DecidableEq V] (wellFormed : graph.WellFormed)
    (atP : graph.Labels p v) :
    List.Forall₂ graph.Labels (graph.targets p) (graph.successors v) := by
  rw [successors_eq_neighbours, wellFormed.neighbours_eq atP]
  exact labels_filterMap fun _ => wellFormed.target_lt

/-- The edge in a slot leads to the first of the targets that are left. -/
theorem exists_target {slot : Nat} {rest : List V}
    (labelled : List.Forall₂ graph.Labels ((graph.targets p).drop slot) (w :: rest)) :
    ∃ q, graph.target? p slot = some q ∧ graph.Labels q w ∧
      List.Forall₂ graph.Labels ((graph.targets p).drop (slot + 1)) rest := by
  obtain ⟨q, positions, atW, later, split⟩ := List.forall₂_cons_right_iff.mp labelled
  refine ⟨q, ?_, atW, ?_⟩
  · rw [← getElem?_targets, ← List.head?_drop, split, List.head?_cons]
  · rw [← List.tail_drop, split, List.tail_cons]
    exact later

end Graph

namespace Descent

variable {V : Type} [DecidableEq V] {descent : Descent V} {u v : V}

/-- A call may hand on a low link before or after it closes its component. -/
theorem lower_leave (different : v ≠ u) :
    (descent.leave v).lower u ((descent.leave v).lowLink v) =
      (descent.lower u (descent.lowLink v)).leave v := by
  have kept : (descent.lower u (descent.lowLink v)).lowLink v = descent.lowLink v :=
    Function.update_of_ne different _ _
  unfold leave
  rw [kept, number_lower]
  split <;> rfl

end Descent

namespace Search

variable {V : Type} {graph : Graph V} {search : Search} {descent : Descent V}
  {p q : Nat} {v w : V} {frame parent : Frame} {path : List Frame}

/-- The state of a search tells that of a recursive search: position by position it has what the
other has under the label. -/
structure Mirrors (graph : Graph V) (search : Search) (descent : Descent V) : Prop where
  number : ∀ {p v}, graph.Labels p v → search.number[p]? = some (descent.number v)
  lowLink : ∀ {p v}, graph.Labels p v → search.lowLinkOf p = descent.lowLink v
  stack : List.Forall₂ graph.Labels search.stack descent.stack
  entered : search.entered = descent.entered
  components : List.Forall₂ (List.Forall₂ graph.Labels) search.components.toList
    descent.components

theorem mirrors_start (graph : Graph V) :
    (start graph.vertexCount).Mirrors graph Descent.start where
  number atP := by
    rw [start, Array.getElem?_replicate]
    exact if_pos atP.lt
  lowLink atP := by
    rw [lowLinkOf, start, Array.getElem?_replicate]
    exact congrArg (Option.getD · 0) (if_pos atP.lt)
  stack := .nil
  entered := rfl
  components := .nil

/-- The path has no part in it. -/
theorem Mirrors.withFrames (mirrors : search.Mirrors graph descent) (frames : List Frame) :
    ({ search with frames := frames } : Search).Mirrors graph descent :=
  { mirrors with }

theorem Mirrors.new_iff (mirrors : search.Mirrors graph descent) (atP : graph.Labels p v) :
    search.number[p]? = some none ↔ descent.New graph v := by
  rw [mirrors.number atP, Option.some_inj, Descent.New]
  exact (and_iff_right (Array.mem_of_getElem? atP)).symm

variable [DecidableEq V]

/-- A stack is split at the same place by positions and by labels. -/
theorem popThrough_labels (wellFormed : graph.WellFormed) (atP : graph.Labels p v)
    {positions : List Nat} {labels : List V} (labelled : List.Forall₂ graph.Labels positions labels)
    (member : p ∈ positions) :
    List.Forall₂ graph.Labels (popThrough p positions).1 (labels.takeWhile (· ≠ v) ++ [v]) ∧
      List.Forall₂ graph.Labels (popThrough p positions).2 (labels.dropWhile (· ≠ v)).tail := by
  induction labelled with
  | nil => exact absurd member List.not_mem_nil
  | @cons first label positions labels atFirst rest ih =>
    have same := wellFormed.labels_eq_iff atFirst atP
    rw [popThrough]
    by_cases here : first = p
    · have found := same.mp here
      rw [if_pos here]
      simp only [found, ne_eq, not_true_eq_false, decide_false, Bool.false_eq_true,
        not_false_eq_true, List.takeWhile_cons_of_neg, List.dropWhile_cons_of_neg]
      exact ⟨.cons (found ▸ atFirst) .nil, rest⟩
    · have other : label ≠ v := fun found => here (same.mpr found)
      obtain ⟨taken, left⟩ := ih ((List.mem_cons.mp member).resolve_left (Ne.symm here))
      rw [if_neg here]
      simp only [ne_eq, other, not_false_eq_true, decide_true, List.takeWhile_cons_of_pos,
        List.dropWhile_cons_of_pos]
      exact ⟨.cons atFirst taken, left⟩

namespace Mirrors

variable (mirrors : search.Mirrors graph descent) (wellFormed : graph.WellFormed)
include mirrors wellFormed

theorem enter (sound : search.Sound graph) (atP : graph.Labels p v) :
    (search.enter p).Mirrors graph (descent.enter v) where
  number := by
    intro q w atQ
    have same := wellFormed.labels_eq_iff atP atQ
    rw [Search.enter, Array.getElem?_setIfInBounds, Descent.number_enter, mirrors.entered]
    split
    · rename_i here
      rw [if_pos (sound.number_size ▸ here ▸ atP.lt), if_pos (same.mp here).symm]
    · rename_i elsewhere
      rw [mirrors.number atQ, if_neg fun found => elsewhere (same.mpr found.symm)]
  lowLink := by
    intro q w atQ
    rw [sound.lowLinkOf_enter atP.lt, Descent.lowLink_enter, mirrors.entered, mirrors.lowLink atQ]
    exact if_congr (wellFormed.labels_eq_iff atQ atP) rfl rfl
  stack := .cons atP mirrors.stack
  entered := congrArg (· + 1) mirrors.entered
  components := mirrors.components

theorem lower (sound : search.Sound graph) (atP : graph.Labels p v) (bound : Nat) :
    (search.lower p bound).Mirrors graph (descent.lower v bound) :=
  { mirrors with
    lowLink := by
      intro q w atQ
      rw [sound.lowLinkOf_lower atP.lt, Descent.lowLink_lower, mirrors.lowLink atP,
        mirrors.lowLink atQ, Nat.min_comm]
      exact if_congr (wellFormed.labels_eq_iff atQ atP) rfl rfl }

theorem close (atP : graph.Labels p v) (member : p ∈ search.stack) :
    (search.close p).Mirrors graph (descent.close v) := by
  obtain ⟨taken, left⟩ := popThrough_labels wellFormed atP mirrors.stack member
  exact
    { mirrors with
      stack := left
      components := by
        rw [Search.close, Array.toList_push]
        exact List.rel_append mirrors.components (.cons taken .nil) }

/-- A vertex closes its component in both or in neither. -/
theorem leave (atP : graph.Labels p v) (member : p ∈ search.stack) :
    (search.leave p).Mirrors graph (descent.leave v) := by
  unfold Search.leave Descent.leave
  rw [mirrors.number atP, mirrors.lowLink atP]
  simp only [Option.some_inj]
  split
  · exact mirrors.close wellFormed atP member
  · exact mirrors

/-- What is learned from an edge to a vertex that has been entered. -/
theorem follow_old (sound : search.Sound graph) (atP : graph.Labels p v) (atQ : graph.Labels q w)
    (old : ¬ descent.New graph w) :
    (search.follow p q).Mirrors graph (descent.learn v w) ∧
      (search.follow p q).frames = search.frames := by
  have onStack : search.isOnStack q = true ↔ w ∈ descent.stack :=
    sound.isOnStack_iff.trans (wellFormed.mem_labels_iff atQ mirrors.stack)
  rw [← mirrors.new_iff atQ, mirrors.number atQ, Option.some_inj] at old
  obtain ⟨number, numbered⟩ := Option.ne_none_iff_exists'.mp old
  unfold Search.follow Descent.learn
  rw [mirrors.number atQ, numbered]
  simp only [onStack]
  split
  · exact ⟨mirrors.lower wellFormed sound atP number, rfl⟩
  · exact ⟨mirrors, rfl⟩

end Mirrors

/-! ## Steps -/

omit [DecidableEq V] in
theorem drain_step (running : search.frames ≠ []) :
    drain graph search = drain graph (step graph search) := by
  rw [Search.drain, if_neg running]

omit [DecidableEq V] in
theorem step_follow (frames : search.frames = frame :: path)
    (found : graph.target? frame.vertex frame.next = some q) :
    step graph search = Search.follow
      { search with frames := { frame with next := frame.next + 1 } :: path } frame.vertex q := by
  simp only [Search.step, frames, found]

omit [DecidableEq V] in
theorem step_leave (frames : search.frames = frame :: path)
    (done : graph.target? frame.vertex frame.next = none) :
    step graph search =
      (Search.report { search with frames := path } frame.vertex).leave frame.vertex := by
  simp only [Search.step, frames, done]

section Return

variable (mirrors : search.Mirrors graph descent) (wellFormed : graph.WellFormed)
  (inv : search.Invariant graph) (atFrame : graph.Labels frame.vertex w)
  (done : graph.target? frame.vertex frame.next = none)
include mirrors wellFormed inv atFrame done

/-- Leaving the vertex of a frame is returning from its call to that of the frame below. -/
theorem Mirrors.leave_child (frames : search.frames = frame :: parent :: path)
    (atParent : graph.Labels parent.vertex v) :
    (step graph search).Mirrors graph
        ((descent.leave w).lower v ((descent.leave w).lowLink w)) ∧
      (step graph search).frames = parent :: path := by
  have layout : Layout graph search (frame :: parent :: path) search.stack := frames ▸ inv.layout
  have member := layout.vertex_mem frame.vertex List.mem_cons_self
  -- Were they the same vertex, closing the component would read the low link just lowered.
  have different : w ≠ v := fun same => inv.sound.vertex_ne_parent layout
    ((wellFormed.labels_eq_iff atFrame atParent).mpr same)
  rw [step_leave frames done, Descent.lower_leave different, ← mirrors.lowLink atFrame]
  refine ⟨?_, (frames_leave _ _).trans (frames_report _ _)⟩
  have told := (mirrors.withFrames (parent :: path)).lower wellFormed (inv.sound.withFrames _)
    atParent (search.lowLinkOf frame.vertex)
  exact told.leave wellFormed atFrame member

/-- Leaving the vertex of the last frame is returning from the call for a root. -/
theorem Mirrors.leave_root (frames : search.frames = [frame]) :
    (step graph search).Mirrors graph (descent.leave w) ∧ (step graph search).frames = [] := by
  have layout : Layout graph search [frame] search.stack := frames ▸ inv.layout
  have member := layout.vertex_mem frame.vertex List.mem_cons_self
  rw [step_leave frames done]
  exact ⟨(mirrors.withFrames []).leave wellFormed atFrame member,
    (frames_leave _ _).trans (frames_report _ _)⟩

end Return

/-! ## Calls -/

/-- From whatever state tells that of a recursive search and has a frame whose edges to some targets
are left, a run of steps follows these edges as the recursive search does. -/
def Unwinds (graph : Graph V) (targets : List V) (descent : Descent V) : Prop :=
  ∀ (search : Search) (frame : Frame) (path : List Frame) (v : V),
    search.Mirrors graph descent → search.Invariant graph → search.frames = frame :: path →
    graph.Labels frame.vertex v →
    List.Forall₂ graph.Labels ((graph.targets frame.vertex).drop frame.next) targets →
      ∃ (after : Search) (slot : Nat), drain graph search = drain graph after ∧
        after.Mirrors graph (Descent.follow graph v targets descent).1 ∧
        after.Invariant graph ∧ after.frames = ⟨frame.vertex, slot⟩ :: path ∧
        graph.target? frame.vertex slot = none

theorem unwinds_nil (graph : Graph V) (descent : Descent V) : Unwinds graph [] descent := by
  intro search frame path v mirrors inv frames _ labelled
  refine ⟨search, frame.next, rfl, ?_, inv, frames, ?_⟩
  · rw [Descent.follow_nil]
    exact mirrors
  · rw [List.forall₂_nil_right_iff, List.drop_eq_nil_iff] at labelled
    rw [← Graph.getElem?_targets, List.getElem?_eq_none_iff]
    exact labelled

/-- An edge to a vertex that has been entered takes one step. -/
theorem unwinds_old (wellFormed : graph.WellFormed) {rest : List V}
    (old : ¬ descent.New graph w)
    (unwinds : ∀ v, Unwinds graph rest (descent.learn v w)) :
    Unwinds graph (w :: rest) descent := by
  intro search frame path v mirrors inv frames atV labelled
  obtain ⟨q, found, atW, later⟩ := Graph.exists_target labelled
  have learned := (mirrors.withFrames ({ frame with next := frame.next + 1 } :: path)).follow_old
    wellFormed (inv.sound.withFrames _) atV atW old
  rw [← step_follow frames found] at learned
  obtain ⟨after, slot, drained, followed⟩ := unwinds v _ { frame with next := frame.next + 1 } path
    v learned.1 (inv.step wellFormed) learned.2 atV later
  rw [Descent.follow_old old]
  exact ⟨after, slot, (drain_step (by simp [frames])).trans drained, followed⟩

/-- An edge to a new vertex takes the steps of its call: one enters it, others follow its edges, and
one leaves it again. -/
theorem unwinds_new (wellFormed : graph.WellFormed) {rest : List V} (new : descent.New graph w)
    (inside : Unwinds graph (graph.successors w) (descent.enter w))
    (unwinds : ∀ v, Unwinds graph rest ((Descent.connect graph descent w new).1.lower v
      ((Descent.connect graph descent w new).1.lowLink w))) :
    Unwinds graph (w :: rest) descent := by
  intro search frame path v mirrors inv frames atV labelled
  obtain ⟨q, found, atW, later⟩ := Graph.exists_target labelled
  have advanced := mirrors.withFrames ({ frame with next := frame.next + 1 } :: path)
  have entered := step_follow frames found
  simp only [Search.follow, (advanced.new_iff atW).mpr new] at entered
  -- The call: its frame lies on that of the vertex from which the edge leads.
  have childMirrors : (step graph search).Mirrors graph (descent.enter w) :=
    entered ▸ advanced.enter wellFormed (inv.sound.withFrames _) atW
  have childFrames : (step graph search).frames =
      ⟨q, 0⟩ :: { frame with next := frame.next + 1 } :: path := by rw [entered, Search.enter]
  obtain ⟨returning, last, drainedInside, mirrorsInside, invInside, framesInside, done⟩ :=
    inside _ ⟨q, 0⟩ _ w childMirrors (inv.step wellFormed) childFrames atW
      (wellFormed.labels_successors atW)
  -- The return to the frame below.
  obtain ⟨left, leftFrames⟩ :=
    mirrorsInside.leave_child wellFormed invInside atW done framesInside atV
  rw [← Descent.connect_eq new] at left
  obtain ⟨after, slot, drainedRest, followed⟩ := unwinds v _ { frame with next := frame.next + 1 }
    path v left (invInside.step wellFormed) leftFrames atV later
  refine ⟨after, slot, ?_, ?_⟩
  · calc drain graph search
      _ = drain graph (step graph search) := drain_step (by simp [frames])
      _ = drain graph returning := drainedInside
      _ = drain graph (step graph returning) := drain_step (by simp [framesInside])
      _ = drain graph after := drainedRest
  · rw [Descent.follow_new new]
    exact followed

/-- The steps of a search are those of the recursive search. The induction is on the vertices that
have not been entered, and with as many of them on the edges that are left. -/
theorem unwinds (wellFormed : graph.WellFormed) (targets : List V) (descent : Descent V) :
    Unwinds graph targets descent := by
  induction count : descent.unentered graph using Nat.strong_induction_on
    generalizing targets descent with
  | h count ih =>
    induction targets generalizing descent with
    | nil => exact unwinds_nil graph descent
    | cons w rest inner =>
      by_cases new : descent.New graph w
      -- A call enters its vertex, so fewer are left inside it and after it.
      · refine unwinds_new wellFormed new (ih _ ?_ _ _ rfl) fun v => ih _ ?_ _ _ rfl
        · exact count ▸ Descent.unentered_enter new
        · rw [Descent.unentered_congr (Descent.number_lower _)]
          exact count ▸ (Descent.connect graph descent w new).2
      · refine unwinds_old wellFormed new fun v => inner _ ?_
        exact (Descent.unentered_congr Descent.number_learn).trans count

/-! ## Roots -/

/-- Searching everything below a root is the call for it. -/
theorem Mirrors.visit (mirrors : search.Mirrors graph descent) (wellFormed : graph.WellFormed)
    (inv : search.Invariant graph) (finished : search.frames = []) (atP : graph.Labels p v) :
    (Search.visit graph search p).Mirrors graph (descent.visit graph v) := by
  unfold Search.visit Descent.visit
  by_cases new : descent.New graph v
  · have unnumbered := (mirrors.new_iff atP).mpr new
    have frames : (search.enter p).frames = [⟨p, 0⟩] := by rw [Search.enter, finished]
    obtain ⟨returning, slot, drained, followed, invAfter, framesAfter, done⟩ :=
      unwinds wellFormed (graph.successors v) (descent.enter v) _ ⟨p, 0⟩ [] v
        (mirrors.enter wellFormed inv.sound atP) (inv.enter_root finished unnumbered) frames atP
        (wellFormed.labels_successors atP)
    obtain ⟨left, leftFrames⟩ := followed.leave_root wellFormed invAfter atP done framesAfter
    rw [if_pos unnumbered, dif_pos new, Descent.connect_eq new, drained,
      drain_step (by simp [framesAfter]), Search.drain, if_pos leftFrames]
    exact left
  · rw [if_neg (mt (mirrors.new_iff atP).mp new), dif_neg new]
    exact mirrors

theorem Mirrors.visits (wellFormed : graph.WellFormed) {roots : List Nat} {labels : List V}
    (labelled : List.Forall₂ graph.Labels roots labels) :
    ∀ {search : Search} {descent : Descent V}, search.Mirrors graph descent →
      search.Invariant graph → search.frames = [] →
        (roots.foldl (Search.visit graph) search).Mirrors graph
          (labels.foldl (Descent.visit graph) descent) := by
  induction labelled with
  | nil => exact fun mirrors _ _ => mirrors
  | @cons root _ _ _ atRoot _ ih =>
    intro search descent mirrors inv finished
    obtain ⟨invNext, finishedNext⟩ := inv.visit finished wellFormed root
    exact ih (mirrors.visit wellFormed inv finished atRoot) invNext finishedNext

end Search

/-- Both searches find the same components in the same order, member by member. -/
theorem Graph.WellFormed.labels_components {V : Type} [DecidableEq V] {graph : Graph V}
    (wellFormed : graph.WellFormed) :
    List.Forall₂ (List.Forall₂ graph.Labels) graph.components graph.recursiveComponents :=
  (Search.Mirrors.visits wellFormed (Graph.labels_range graph) (Search.mirrors_start graph)
    (Search.invariant_start graph) rfl).components

namespace Decomposition

variable {graph : Graph RelationId} {v : RelationId} {k : Nat}

/-- The groups of a decomposition are the components of the recursive search, each sorted. -/
theorem groups_recursive (wellFormed : graph.WellFormed) :
    groups graph = graph.recursiveComponents.map RelationId.sort := by
  refine Graph.map_eq_of_all_labels (fun labelled => ?_) wellFormed.labels_components
  rw [Graph.filterMap_eq_of_labels labelled]

/-- The number of a component is its place in the order in which the recursive search closes
them. -/
theorem members_component? (wellFormed : graph.WellFormed) :
    ((ofGraph graph).component? ⟨k⟩).map (fun component => component.members.toList) =
      graph.recursiveComponents[k]?.map RelationId.sort := by
  rw [← List.getElem?_map, ← groups_recursive wellFormed]
  simp only [component?, ofGraph, List.getElem?_toArray, List.getElem?_map, Option.map_map]
  exact Option.map_id'

theorem owner?_iff_recursive (wellFormed : graph.WellFormed) :
    (ofGraph graph).owner? v = some ⟨k⟩ ↔
      ∃ members, graph.recursiveComponents[k]? = some members ∧ v ∈ members := by
  have sorted := members_component? (k := k) wellFormed
  rw [(represents_ofGraph wellFormed).owner?_eq_some_iff]
  constructor
  · rintro ⟨component, found, inside⟩
    rw [found, Option.map_some, eq_comm, Option.map_eq_some_iff] at sorted
    obtain ⟨members, atK, same⟩ := sorted
    exact ⟨members, atK, RelationId.mem_sort.mp (same ▸ Array.mem_toList_iff.mpr inside)⟩
  · rintro ⟨members, atK, inside⟩
    rw [atK, Option.map_some, Option.map_eq_some_iff] at sorted
    obtain ⟨component, found, same⟩ := sorted
    exact ⟨component, found, Array.mem_toList_iff.mp (same ▸ RelationId.mem_sort.mpr inside)⟩

end Decomposition

/-- The search with a path of frames finds what the recursive search finds, whatever was inserted
into the graph. Roots and edges are tried in the order of their first insertion. Both searches list
the same components in the same order, each with its members in the same order. So the number of
a component in the decomposition is its place in the order in which the calls of the recursive
search close them. -/
theorem search_as_recursion (log : List (Insertion RelationId)) :
    let graph := Graph.ofInsertions log
    let decomposition := Decomposition.ofGraph graph
    graph.vertices.toList = (log.flatMap Insertion.labels).eraseDups ∧
    (∀ v, graph.successors v = (log.flatMap (Insertion.targetsFrom v)).eraseDups) ∧
    graph.components.map (fun positions => positions.map (graph.vertices[·]?)) =
      graph.recursiveComponents.map (fun labels => labels.map some) ∧
    (∀ k : Nat, (decomposition.component? ⟨k⟩).map (fun component => component.members.toList) =
      graph.recursiveComponents[k]?.map RelationId.sort) ∧
    ∀ v, ∀ k : Nat, decomposition.owner? v = some ⟨k⟩ ↔
      ∃ members, graph.recursiveComponents[k]? = some members ∧ v ∈ members := by
  intro graph decomposition
  have wellFormed : graph.WellFormed := Graph.wellFormed_ofInsertions log
  exact ⟨Graph.vertices_ofInsertions log, Graph.successors_ofInsertions log,
    Graph.map_eq_of_all_labels Graph.map_eq_of_labels wellFormed.labels_components,
    fun _ => Decomposition.members_component? wellFormed,
    fun _ _ => Decomposition.owner?_iff_recursive wellFormed⟩

end DatalogStrata
