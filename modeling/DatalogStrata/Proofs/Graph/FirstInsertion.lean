import DatalogStrata.Proofs.FirstOccurrence
import DatalogStrata.Proofs.Graph.Tables

/-!
# Listings in the order of first insertion

A graph lists its vertices, the targets of the edges out of a vertex and the sources of the edges
into one in the order in which a log of insertions brings them for the first time. Whatever comes
again is passed over: a vertex that is there keeps its place, and so does an edge, whose sign is
all that can change.

The two listings of neighbours are the same thing said of two tables: a row of positions belongs to
each position and is told by the labels. An insertion lengthens one row of each table by one
position or leaves both tables alone, and adding vertices changes no row.

## Main definitions

* `Insertion.labels`, `Insertion.targetsFrom`, `Insertion.sourcesInto` — what an insertion brings
* `Graph.neighbours` — a row of positions by its labels

## Main results

* `Graph.WellFormed.insertEdge_old_or_new` — what inserting an edge does
* `Graph.WellFormed.vertices_insert`, `Graph.WellFormed.successors_insert`,
  `Graph.WellFormed.predecessors_insert` — each listing after an insertion
* `Graph.vertices_ofInsertions`, `Graph.successors_ofInsertions`,
  `Graph.predecessors_ofInsertions` — the listings of the graph of a log
-/

namespace DatalogStrata

namespace Insertion

variable {V : Type}

/-- The labels that an insertion mentions, a source before its target. -/
def labels : Insertion V → List V
  | .vertex label => [label]
  | .edge inserted => [inserted.source, inserted.target]

variable [DecidableEq V]

/-- The target of an inserted edge that leaves a vertex. -/
def targetsFrom (source : V) : Insertion V → List V
  | .vertex _ => []
  | .edge inserted => if inserted.source = source then [inserted.target] else []

/-- The source of an inserted edge that enters a vertex. -/
def sourcesInto (target : V) : Insertion V → List V
  | .vertex _ => []
  | .edge inserted => if inserted.target = target then [inserted.source] else []

end Insertion

namespace Graph

variable {V : Type} [DecidableEq V] {graph : Graph V} {row longer : Nat → List Nat}
  {label other : V} {position : Nat}

/-! ## Rows of positions -/

/-- The labels in the row that belongs to a vertex; none for an unknown label. -/
def neighbours (graph : Graph V) (row : Nat → List Nat) (label : V) : List V :=
  match graph.position? label with
  | some position => (row position).filterMap (graph.vertices[·]?)
  | none => []

theorem successors_eq_neighbours (graph : Graph V) (label : V) :
    graph.successors label = graph.neighbours graph.targets label := by
  rw [neighbours]
  cases found : graph.position? label with
  | none => rw [successors, successorEdges, found, List.map_nil]
  | some position => rw [successors_of_position? found]

theorem predecessors_eq_neighbours (graph : Graph V) (label : V) :
    graph.predecessors label = graph.neighbours (fun place => (graph.sources place).toList) label :=
  rfl

/-- Merging a sign into an edge leaves what its source leads to as it is. -/
theorem successors_mergeAt (graph : Graph V) (source slot : Nat) (sign : Polarity) (label : V) :
    (graph.mergeAt source slot sign).successors label = graph.successors label := by
  have kept : (graph.mergeAt source slot sign).targets = graph.targets :=
    funext fun position => targets_mergeAt graph source slot position sign
  rw [successors_eq_neighbours, successors_eq_neighbours, kept]
  rfl

theorem predecessors_mergeAt (graph : Graph V) (source slot : Nat) (sign : Polarity) (label : V) :
    (graph.mergeAt source slot sign).predecessors label = graph.predecessors label :=
  rfl

namespace WellFormed

variable (wellFormed : graph.WellFormed)
include wellFormed

theorem neighbours_eq (placed : graph.vertices[position]? = some label) :
    graph.neighbours row label = (row position).filterMap (graph.vertices[·]?) := by
  rw [neighbours, wellFormed.position?_eq_some_iff.mpr placed]

theorem neighbours_of_not_mem (missing : label ∉ graph.vertices) :
    graph.neighbours row label = [] := by
  rw [neighbours, wellFormed.position?_eq_none_iff.mpr missing]

/-- Adding a vertex changes no label in a row of vertices that are there. -/
theorem neighbours_insertVertex
    (inside : ∀ place, ∀ next ∈ row place, place < graph.vertices.size ∧ next < graph.vertices.size)
    (label other : V) :
    (graph.insertVertex label).2.neighbours row other = graph.neighbours row other := by
  have grown := wellFormed.insertVertex label
  by_cases member : other ∈ graph.vertices
  · obtain ⟨place, placed⟩ := Array.mem_iff_getElem?.mp member
    rw [grown.neighbours_eq (getElem?_insertVertex placed label), wellFormed.neighbours_eq placed]
    refine List.filterMap_congr fun next listed => ?_
    have atNext := Array.getElem?_eq_getElem (inside place next listed).2
    rw [atNext, getElem?_insertVertex atNext]
  · rw [wellFormed.neighbours_of_not_mem member]
    by_cases added : other ∈ (graph.insertVertex label).2.vertices
    · obtain ⟨place, placed⟩ := Array.mem_iff_getElem?.mp added
      -- A new vertex stands behind the others, where every row is still empty.
      have outside : ¬ place < graph.vertices.size := by
        intro bound
        have before := Array.getElem?_eq_getElem bound
        have same := (getElem?_insertVertex before label).symm.trans placed
        exact member (Option.some_inj.mp same ▸ Array.getElem_mem bound)
      have empty : row place = [] :=
        List.eq_nil_iff_forall_not_mem.mpr fun next listed => outside (inside place next listed).1
      rw [grown.neighbours_eq placed, empty, List.filterMap_nil]
    · exact grown.neighbours_of_not_mem added

/-- A position added to the row of one vertex adds its label there and nowhere else. -/
theorem neighbours_longer {place next : Nat} {owner added : V}
    (atPlace : graph.vertices[place]? = some owner) (atNext : graph.vertices[next]? = some added)
    (grows : ∀ position, longer position =
      if place = position then row position ++ [next] else row position) (label : V) :
    graph.neighbours longer label =
      if label = owner then graph.neighbours row label ++ [added]
      else graph.neighbours row label := by
  by_cases member : label ∈ graph.vertices
  · obtain ⟨position, placed⟩ := Array.mem_iff_getElem?.mp member
    have owns : place = position ↔ label = owner := by
      constructor
      · rintro rfl
        exact Option.some_inj.mp (placed.symm.trans atPlace)
      · rintro rfl
        exact wellFormed.position_unique atPlace placed
    rw [wellFormed.neighbours_eq placed, wellFormed.neighbours_eq placed, grows]
    simp only [owns]
    split
    · rw [List.filterMap_append, List.filterMap_cons, atNext, List.filterMap_nil]
    · rfl
  · have different : label ≠ owner := by
      rintro rfl
      exact member (Array.mem_of_getElem? atPlace)
    rw [if_neg different, wellFormed.neighbours_of_not_mem member,
      wellFormed.neighbours_of_not_mem member]

/-! ## What an insertion adds -/

theorem successors_insertVertex (label other : V) :
    (graph.insertVertex label).2.successors other = graph.successors other := by
  have kept : (graph.insertVertex label).2.targets = graph.targets := by
    funext place
    rw [targets, arrows_insertVertex, targets]
  rw [successors_eq_neighbours, successors_eq_neighbours, kept]
  exact wellFormed.neighbours_insertVertex
    (fun _ _ leads => ⟨wellFormed.source_lt leads, wellFormed.target_lt leads⟩) label other

theorem predecessors_insertVertex (label other : V) :
    (graph.insertVertex label).2.predecessors other = graph.predecessors other := by
  have kept (place : Nat) : (graph.insertVertex label).2.sources place = graph.sources place := by
    obtain ⟨position, -, same⟩ | ⟨-, grown⟩ := insertVertex_cases graph label
    · rw [same]
    · rw [grown, sources_addVertex]
  rw [predecessors_eq_neighbours, predecessors_eq_neighbours]
  simp only [kept]
  refine wellFormed.neighbours_insertVertex (fun place source listed => ?_) label other
  have leads := wellFormed.mem_sources_iff.mp (Array.mem_toList_iff.mp listed)
  exact ⟨wellFormed.target_lt leads, wellFormed.source_lt leads⟩

theorem successors_link {source target : Nat} {owner added : V}
    (atSource : graph.vertices[source]? = some owner)
    (atTarget : graph.vertices[target]? = some added) (sign : Polarity) (label : V) :
    (graph.link source target sign).successors label =
      if label = owner then graph.successors label ++ [added] else graph.successors label := by
  have bound := wellFormed.outgoing_size ▸ (Array.getElem?_eq_some_iff.mp atSource).1
  rw [successors_eq_neighbours, successors_eq_neighbours]
  exact wellFormed.neighbours_longer atSource atTarget (targets_link bound target sign) label

theorem predecessors_link {source target : Nat} {owner added : V}
    (atSource : graph.vertices[source]? = some added)
    (atTarget : graph.vertices[target]? = some owner) (sign : Polarity) (label : V) :
    (graph.link source target sign).predecessors label =
      if label = owner then graph.predecessors label ++ [added] else graph.predecessors label := by
  have bound := wellFormed.incoming_size ▸ (Array.getElem?_eq_some_iff.mp atTarget).1
  rw [predecessors_eq_neighbours, predecessors_eq_neighbours]
  refine wellFormed.neighbours_longer atTarget atSource (fun position => ?_) label
  rw [sources_link bound, apply_ite Array.toList, Array.toList_push]

/-- Once both of its ends are there, an edge is merged if the graph had it before and is linked
otherwise. -/
theorem insertEdge_old_or_new (edge : Edge V) :
    ∃ (grown : Graph V) (source target : Nat), grown.WellFormed ∧
      (∀ label, grown.successors label = graph.successors label) ∧
      (∀ label, grown.predecessors label = graph.predecessors label) ∧
      grown.vertices[source]? = some edge.source ∧ grown.vertices[target]? = some edge.target ∧
      ((graph.HasEdge edge.source edge.target ∧
          ∃ slot, graph.insertEdge edge = grown.mergeAt source slot edge.polarity) ∨
        graph.insertEdge edge = grown.link source target edge.polarity) := by
  have grownSource := wellFormed.insertVertex edge.source
  have grown := grownSource.insertVertex edge.target
  obtain ⟨atSource, atTarget⟩ := wellFormed.getElem?_insertVertex_ends edge.source edge.target
  refine ⟨_, _, _, grown, ?_, ?_, atSource, atTarget, ?_⟩
  · exact fun label => (grownSource.successors_insertVertex edge.target label).trans
      (wellFormed.successors_insertVertex edge.source label)
  · exact fun label => (grownSource.predecessors_insertVertex edge.target label).trans
      (wellFormed.predecessors_insertVertex edge.source label)
  · refine (insertEdge_cases graph edge).imp ?_ And.right
    rintro ⟨slot, found, merged⟩
    refine ⟨?_, slot, merged⟩
    -- Adding vertices makes no edge, so the one that is found was there before.
    have leads := grown.hasEdge_iff_targets.mpr
      ⟨_, _, atSource, atTarget, grown.mem_targets_of_slot? found⟩
    rwa [grown.hasEdge_iff, grownSource.polarity?_insertVertex, wellFormed.polarity?_insertVertex,
      ← wellFormed.hasEdge_iff] at leads

theorem vertices_insertVertex (label : V) : (graph.insertVertex label).2.vertices.toList =
    (graph.vertices.toList ++ [label]).eraseDups := by
  refine eq_eraseDups_append (wellFormed.insertVertex label).vertices_nodup ?_
  obtain ⟨position, found, same⟩ | ⟨-, grown⟩ := insertVertex_cases graph label
  · left
    refine ⟨by rw [same], fun other last => ?_⟩
    rw [List.mem_singleton.mp last, Array.mem_toList_iff]
    exact Array.mem_of_getElem? (wellFormed.position?_eq_some_iff.mp found)
  · right
    rw [grown]
    exact Array.toList_push

/-- An insertion adds what it mentions to the vertices. -/
theorem vertices_insert (insertion : Insertion V) : (graph.insert insertion).vertices.toList =
    (graph.vertices.toList ++ insertion.labels).eraseDups := by
  cases insertion with
  | vertex label => exact wellFormed.vertices_insertVertex label
  | edge edge =>
    rw [Graph.insert, vertices_insertEdge, (wellFormed.insertVertex _).vertices_insertVertex,
      wellFormed.vertices_insertVertex, eraseDups_append_eraseDups, List.append_assoc]
    rfl

/-- An edge adds its target to what its source leads to. -/
theorem successors_insert (insertion : Insertion V) (label : V) :
    (graph.insert insertion).successors label =
      (graph.successors label ++ insertion.targetsFrom label).eraseDups := by
  -- No target is listed twice, so it is enough that the listing is kept or lengthened.
  refine eq_eraseDups_append ((wellFormed.insert insertion).successors_nodup label) ?_
  cases insertion with
  | vertex other =>
    exact Or.inl ⟨wellFormed.successors_insertVertex other label,
      fun _ brought => absurd brought List.not_mem_nil⟩
  | edge edge =>
    obtain ⟨grown, source, target, grownFormed, kept, -, atSource, atTarget,
      ⟨old, slot, merged⟩ | linked⟩ := wellFormed.insertEdge_old_or_new edge
    · left
      refine ⟨by rw [Graph.insert, merged, successors_mergeAt, kept], fun next brought => ?_⟩
      rw [Insertion.targetsFrom, List.mem_ite_nil_right, List.mem_singleton] at brought
      obtain ⟨rfl, rfl⟩ := brought
      exact wellFormed.mem_successors_iff.mpr old
    · right
      rw [Graph.insert, linked, grownFormed.successors_link atSource atTarget, kept,
        Insertion.targetsFrom]
      by_cases own : edge.source = label
      · rw [if_pos own.symm, if_pos own]
      · rw [if_neg (Ne.symm own), if_neg own, List.append_nil]

/-- An edge adds its source to what leads to its target. -/
theorem predecessors_insert (insertion : Insertion V) (label : V) :
    (graph.insert insertion).predecessors label =
      (graph.predecessors label ++ insertion.sourcesInto label).eraseDups := by
  refine eq_eraseDups_append ((wellFormed.insert insertion).predecessors_nodup label) ?_
  cases insertion with
  | vertex other =>
    exact Or.inl ⟨wellFormed.predecessors_insertVertex other label,
      fun _ brought => absurd brought List.not_mem_nil⟩
  | edge edge =>
    obtain ⟨grown, source, target, grownFormed, -, kept, atSource, atTarget,
      ⟨old, slot, merged⟩ | linked⟩ := wellFormed.insertEdge_old_or_new edge
    · left
      refine ⟨by rw [Graph.insert, merged, predecessors_mergeAt, kept], fun next brought => ?_⟩
      rw [Insertion.sourcesInto, List.mem_ite_nil_right, List.mem_singleton] at brought
      obtain ⟨rfl, rfl⟩ := brought
      exact wellFormed.mem_predecessors_iff.mpr old
    · right
      rw [Graph.insert, linked, grownFormed.predecessors_link atSource atTarget, kept,
        Insertion.sourcesInto]
      by_cases own : edge.target = label
      · rw [if_pos own.symm, if_pos own]
      · rw [if_neg (Ne.symm own), if_neg own, List.append_nil]

end WellFormed

/-! ## The listings of a log -/

/-- One more insertion is carried out on the graph of those before it. -/
theorem ofInsertions_concat (log : List (Insertion V)) (last : Insertion V) :
    ofInsertions (log ++ [last]) = (ofInsertions log).insert last := by
  rw [ofInsertions, List.foldl_append, List.foldl_cons, List.foldl_nil, ofInsertions]

/-- A listing to which each insertion adds what it brings lists what the log brings. -/
theorem listing_ofInsertions (listing : Graph V → List V) {brought : Insertion V → List V}
    (nothing : listing empty = [])
    (step : ∀ graph : Graph V, graph.WellFormed → ∀ insertion,
      listing (graph.insert insertion) = (listing graph ++ brought insertion).eraseDups)
    (log : List (Insertion V)) :
    listing (ofInsertions log) = (log.flatMap brought).eraseDups := by
  induction log using List.reverseRecOn with
  | nil => exact nothing
  | append_singleton log last ih =>
    rw [ofInsertions_concat, step _ (wellFormed_ofInsertions log), ih, eraseDups_append_eraseDups,
      List.flatMap_append, List.flatMap_singleton]

/-- The vertices stand in the order in which the log mentions them for the first time. -/
theorem vertices_ofInsertions (log : List (Insertion V)) :
    (ofInsertions log).vertices.toList = (log.flatMap Insertion.labels).eraseDups :=
  listing_ofInsertions (fun graph => graph.vertices.toList) rfl
    (fun _ wellFormed => wellFormed.vertices_insert) log

/-- What a vertex leads to stands in the order in which the log inserts the edges. -/
theorem successors_ofInsertions (log : List (Insertion V)) (source : V) :
    (ofInsertions log).successors source = (log.flatMap (Insertion.targetsFrom source)).eraseDups :=
  listing_ofInsertions (fun graph => graph.successors source) rfl
    (fun _ wellFormed insertion => wellFormed.successors_insert insertion source) log

/-- What leads to a vertex stands in the order in which the log inserts the edges. -/
theorem predecessors_ofInsertions (log : List (Insertion V)) (target : V) :
    (ofInsertions log).predecessors target =
      (log.flatMap (Insertion.sourcesInto target)).eraseDups :=
  listing_ofInsertions (fun graph => graph.predecessors target) rfl
    (fun _ wellFormed insertion => wellFormed.predecessors_insert insertion target) log

end Graph

end DatalogStrata
