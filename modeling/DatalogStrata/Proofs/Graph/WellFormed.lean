import DatalogStrata.Graph.Basic
import Mathlib.Data.List.Nodup

/-!
# The representation of a graph

A graph holds its edges twice, at their sources and at their targets, and by positions rather than
labels; two further tables find the position of a label and the slot of an edge. What makes these
tables a graph is stated here once, and shown to hold of whatever a log of insertions builds.

## Main definitions

* `Graph.targets` — the positions to which edges lead from a position
* `Graph.WellFormed` — the tables of a graph agree with each other

## Main results

* `Graph.WellFormed.position?_eq_some_iff`, `Graph.WellFormed.slot?_eq_some_iff` — labels and edges
  are found where they stand
* `Graph.WellFormed.insertVertex`, `Graph.WellFormed.insertEdge` — both ways to grow keep the
  tables in step
* `Graph.wellFormed_ofInsertions` — every graph built by insertions is well formed
-/

namespace DatalogStrata

/-- In a list without repetitions each item is found under its place. -/
theorem lookup_zipIdx_eq_some_iff {α : Type} [DecidableEq α] {items : List α}
    (distinct : items.Nodup) {item : α} {place : Nat} :
    items.zipIdx.lookup item = some place ↔ items[place]? = some item := by
  have listed {other : Nat} (found : items.zipIdx.lookup item = some other) :
      items[other]? = some item := by
    obtain ⟨before, after, split, -⟩ := List.lookup_eq_some_iff.mp found
    apply List.mk_mem_zipIdx_iff_getElem?.mp
    simp [split]
  constructor
  · exact listed
  · intro placed
    cases found : items.zipIdx.lookup item with
    | none =>
      have missing := List.lookup_eq_none_iff.mp found _ (List.mk_mem_zipIdx_iff_getElem?.mpr placed)
      simp at missing
    | some other =>
      have bound := (List.getElem?_eq_some_iff.mp (listed found)).1
      rw [(List.getElem?_inj bound distinct).mp ((listed found).trans placed.symm)]

/-- Exactly the items of a list are found. -/
theorem lookup_zipIdx_eq_none_iff {α : Type} [DecidableEq α] {items : List α} {item : α} :
    items.zipIdx.lookup item = none ↔ item ∉ items := by
  rw [List.lookup_eq_none_iff]
  constructor
  · intro missing member
    obtain ⟨place, placed⟩ := List.mem_iff_getElem?.mp member
    simpa using missing _ (List.mk_mem_zipIdx_iff_getElem?.mpr placed)
  · intro missing entry inside
    have member : entry.1 ∈ items :=
      List.mem_of_getElem? (List.mem_zipIdx_iff_getElem?.mp inside)
    simp only [bne_iff_ne, ne_eq]
    intro same
    exact missing (same ▸ member)

namespace Graph

variable {V : Type} {graph : Graph V}

/-- The positions to which the edges from a position lead, in slot order. -/
def targets (graph : Graph V) (source : Nat) : List Nat :=
  (graph.arrows source).toList.map Arrow.target

theorem getElem?_targets (graph : Graph V) (source slot : Nat) :
    (graph.targets source)[slot]? = graph.target? source slot := by
  rw [targets, target?, List.getElem?_map, Array.getElem?_toList]

theorem mem_targets_iff {source target : Nat} :
    target ∈ graph.targets source ↔ ∃ arrow ∈ graph.arrows source, arrow.target = target := by
  simp only [targets, List.mem_map, Array.mem_toList_iff]

/-- The tables of a graph fit together: vertices are distinct and entered under their labels, each
has its lists, edges lead to vertices, no two edges have the same ends, and each edge is entered
at both of its ends and under the position of its target. -/
structure WellFormed (graph : Graph V) : Prop where
  vertices_nodup : graph.vertices.toList.Nodup
  places_eq : graph.places = graph.vertices.toList.zipIdx
  outgoing_size : graph.outgoing.size = graph.vertices.size
  incoming_size : graph.incoming.size = graph.vertices.size
  slots_size : graph.slots.size = graph.vertices.size
  target_lt : ∀ {source target}, target ∈ graph.targets source → target < graph.vertices.size
  targets_nodup : ∀ source, (graph.targets source).Nodup
  slotsFrom_eq : ∀ source, graph.slotsFrom source = (graph.targets source).zipIdx
  sources_nodup : ∀ target, (graph.sources target).toList.Nodup
  mem_sources_iff : ∀ {source target},
    source ∈ graph.sources target ↔ target ∈ graph.targets source

namespace WellFormed

theorem source_lt (wellFormed : graph.WellFormed) {source target : Nat}
    (leads : target ∈ graph.targets source) : source < graph.vertices.size := by
  rw [← wellFormed.outgoing_size]
  by_contra outside
  simp [targets, arrows, Array.getElem?_eq_none (Nat.le_of_not_lt outside)] at leads

/-- Of the edges from one vertex to another there is only one, in one slot. -/
theorem slot_unique (wellFormed : graph.WellFormed) {source i j : Nat} {a b : Arrow}
    (first : (graph.arrows source)[i]? = some a) (second : (graph.arrows source)[j]? = some b)
    (same : a.target = b.target) : i = j ∧ a = b := by
  have atFirst : (graph.targets source)[i]? = some a.target := by
    rw [getElem?_targets, target?, first, Option.map_some]
  have atSecond : (graph.targets source)[j]? = some a.target := by
    rw [getElem?_targets, target?, second, Option.map_some, same]
  obtain rfl : i = j := (List.getElem?_inj (List.getElem?_eq_some_iff.mp atFirst).1
    (wellFormed.targets_nodup source)).mp (atFirst.trans atSecond.symm)
  exact ⟨rfl, Option.some_inj.mp (first.symm.trans second)⟩

theorem arrow_unique (wellFormed : graph.WellFormed) {source : Nat} {a b : Arrow}
    (first : a ∈ graph.arrows source) (second : b ∈ graph.arrows source)
    (same : a.target = b.target) : a = b := by
  obtain ⟨i, atFirst⟩ := Array.mem_iff_getElem?.mp first
  obtain ⟨j, atSecond⟩ := Array.mem_iff_getElem?.mp second
  exact (wellFormed.slot_unique atFirst atSecond same).2

theorem position_unique (wellFormed : graph.WellFormed) {label : V} {i j : Nat}
    (first : graph.vertices[i]? = some label) (second : graph.vertices[j]? = some label) :
    i = j := by
  rw [← Array.getElem?_toList] at first second
  exact (List.getElem?_inj (List.getElem?_eq_some_iff.mp first).1 wellFormed.vertices_nodup).mp
    (first.trans second.symm)

end WellFormed

theorem wellFormed_empty : (empty : Graph V).WellFormed where
  vertices_nodup := List.nodup_nil
  places_eq := rfl
  outgoing_size := rfl
  incoming_size := rfl
  slots_size := rfl
  target_lt := by simp [empty, targets, arrows]
  targets_nodup := by simp [empty, targets, arrows]
  slotsFrom_eq := by simp [empty, targets, arrows, slotsFrom]
  sources_nodup := by simp [empty, sources]
  mem_sources_iff := by simp [empty, targets, arrows, sources]

/-! ## Positions and slots -/

/-- An edge is found in the slot in which it stands. -/
theorem WellFormed.slot?_eq_some_iff (wellFormed : graph.WellFormed) {source target slot : Nat} :
    graph.slot? source target = some slot ↔ graph.target? source slot = some target := by
  rw [slot?, wellFormed.slotsFrom_eq, lookup_zipIdx_eq_some_iff (wellFormed.targets_nodup source),
    getElem?_targets]

theorem WellFormed.slot?_eq_none_iff (wellFormed : graph.WellFormed) {source target : Nat} :
    graph.slot? source target = none ↔ target ∉ graph.targets source := by
  rw [slot?, wellFormed.slotsFrom_eq, lookup_zipIdx_eq_none_iff]

theorem WellFormed.exists_of_slot? (wellFormed : graph.WellFormed) {source target slot : Nat}
    (found : graph.slot? source target = some slot) :
    ∃ arrow, (graph.arrows source)[slot]? = some arrow ∧ arrow.target = target :=
  Option.map_eq_some_iff.mp (wellFormed.slot?_eq_some_iff.mp found)

section Position

variable [DecidableEq V] {label : V} {position : Nat}

/-- A vertex is found where it stands. -/
theorem WellFormed.position?_eq_some_iff (wellFormed : graph.WellFormed) :
    graph.position? label = some position ↔ graph.vertices[position]? = some label := by
  rw [position?, wellFormed.places_eq, lookup_zipIdx_eq_some_iff wellFormed.vertices_nodup,
    Array.getElem?_toList]

theorem WellFormed.position?_eq_none_iff (wellFormed : graph.WellFormed) :
    graph.position? label = none ↔ label ∉ graph.vertices := by
  rw [position?, wellFormed.places_eq, lookup_zipIdx_eq_none_iff, Array.mem_toList_iff]

/-- The positions of the vertices are all positions in order. -/
theorem WellFormed.filterMap_position?_vertices (wellFormed : graph.WellFormed) :
    graph.vertices.toList.filterMap graph.position? = List.range graph.vertexCount := by
  have placed : graph.vertices.toList.map graph.position? =
      (List.range graph.vertexCount).map some := by
    refine List.ext_getElem (by simp [vertexCount]) fun position inVertices _ => ?_
    rw [List.getElem_map, List.getElem_map, List.getElem_range, wellFormed.position?_eq_some_iff,
      ← Array.getElem?_toList, List.getElem?_eq_getElem]
  simpa [List.filterMap_map] using congrArg (List.filterMap id) placed

end Position

/-! ## Adding a vertex -/

@[simp] theorem arrows_addVertex (graph : Graph V) (label : V) (position : Nat) :
    (graph.addVertex label).arrows position = graph.arrows position := by
  simp only [addVertex, arrows, Array.getElem?_push]
  split
  · rename_i last
    simp [last]
  · rfl

@[simp] theorem targets_addVertex (graph : Graph V) (label : V) (position : Nat) :
    (graph.addVertex label).targets position = graph.targets position := by
  rw [targets, arrows_addVertex, targets]

@[simp] theorem sources_addVertex (graph : Graph V) (label : V) (position : Nat) :
    (graph.addVertex label).sources position = graph.sources position := by
  simp only [addVertex, sources, Array.getElem?_push]
  split
  · rename_i last
    simp [last]
  · rfl

@[simp] theorem slotsFrom_addVertex (graph : Graph V) (label : V) (position : Nat) :
    (graph.addVertex label).slotsFrom position = graph.slotsFrom position := by
  simp only [addVertex, slotsFrom, Array.getElem?_push]
  split
  · rename_i last
    simp [last]
  · rfl

/-- Adding a vertex that is not there keeps the tables in step. -/
theorem WellFormed.addVertex (wellFormed : graph.WellFormed) {label : V}
    (new : label ∉ graph.vertices) : (graph.addVertex label).WellFormed where
  vertices_nodup := by
    simp only [Graph.addVertex, Array.toList_push, List.nodup_append, List.nodup_singleton,
      List.mem_singleton, Array.mem_toList_iff, true_and]
    refine ⟨wellFormed.vertices_nodup, ?_⟩
    intro other present last equal same
    exact new (equal ▸ same ▸ present)
  places_eq := by
    simp [Graph.addVertex, List.zipIdx_append, wellFormed.places_eq]
  outgoing_size := by simp [Graph.addVertex, wellFormed.outgoing_size]
  incoming_size := by simp [Graph.addVertex, wellFormed.incoming_size]
  slots_size := by simp [Graph.addVertex, wellFormed.slots_size]
  target_lt := by
    intro source target leads
    rw [targets_addVertex] at leads
    simpa [Graph.addVertex] using Nat.lt_succ_of_lt (wellFormed.target_lt leads)
  targets_nodup := by simpa using wellFormed.targets_nodup
  slotsFrom_eq := by simpa using wellFormed.slotsFrom_eq
  sources_nodup := by simpa using wellFormed.sources_nodup
  mem_sources_iff := by
    intro source target
    simpa using wellFormed.mem_sources_iff

section InsertVertex

variable [DecidableEq V]

/-- A label that is there keeps its place; one that is not gets the next place, without edges. -/
theorem insertVertex_cases (graph : Graph V) (label : V) :
    (∃ position, graph.position? label = some position ∧
      graph.insertVertex label = (position, graph)) ∨
    (graph.position? label = none ∧
      graph.insertVertex label = (graph.vertices.size, graph.addVertex label)) := by
  cases found : graph.position? label with
  | some position => exact Or.inl ⟨position, rfl, by simp [insertVertex, found]⟩
  | none => exact Or.inr ⟨rfl, by simp [insertVertex, found]⟩

@[simp] theorem arrows_insertVertex (graph : Graph V) (label : V) (position : Nat) :
    (graph.insertVertex label).2.arrows position = graph.arrows position := by
  obtain ⟨place, -, same⟩ | ⟨-, grown⟩ := insertVertex_cases graph label
  · rw [same]
  · rw [grown, arrows_addVertex]

/-- Vertices keep their places. -/
theorem getElem?_insertVertex {other : V} {position : Nat}
    (placed : graph.vertices[position]? = some other) (label : V) :
    (graph.insertVertex label).2.vertices[position]? = some other := by
  obtain ⟨place, -, same⟩ | ⟨-, grown⟩ := insertVertex_cases graph label
  · rw [same]
    exact placed
  · have bound := (Array.getElem?_eq_some_iff.mp placed).1
    rw [grown, addVertex, Array.getElem?_push, if_neg (Nat.ne_of_lt bound)]
    exact placed

theorem WellFormed.getElem?_insertVertex_self (wellFormed : graph.WellFormed) (label : V) :
    (graph.insertVertex label).2.vertices[(graph.insertVertex label).1]? = some label := by
  obtain ⟨place, found, same⟩ | ⟨-, grown⟩ := insertVertex_cases graph label
  · rw [same]
    exact wellFormed.position?_eq_some_iff.mp found
  · rw [grown]
    exact Array.getElem?_push_size

theorem WellFormed.mem_vertices_insertVertex (wellFormed : graph.WellFormed) {label other : V} :
    other ∈ (graph.insertVertex label).2.vertices ↔ other ∈ graph.vertices ∨ other = label := by
  obtain ⟨place, found, same⟩ | ⟨-, grown⟩ := insertVertex_cases graph label
  · rw [same]
    have present := Array.mem_of_getElem? (wellFormed.position?_eq_some_iff.mp found)
    exact ⟨Or.inl, fun either => either.elim id fun equal => equal ▸ present⟩
  · rw [grown]
    exact Array.mem_push

theorem WellFormed.insertVertex (wellFormed : graph.WellFormed) (label : V) :
    (graph.insertVertex label).2.WellFormed := by
  obtain ⟨place, -, same⟩ | ⟨missing, grown⟩ := insertVertex_cases graph label
  · rw [same]
    exact wellFormed
  · rw [grown]
    exact wellFormed.addVertex (wellFormed.position?_eq_none_iff.mp missing)

end InsertVertex

/-! ## Adding an edge -/

theorem arrows_mergeAt (graph : Graph V) (source slot position : Nat) (sign : Polarity) :
    (graph.mergeAt source slot sign).arrows position =
      if source = position then
        (graph.arrows position).modify slot fun arrow =>
          { arrow with polarity := arrow.polarity.merge sign }
      else graph.arrows position := by
  simp only [mergeAt, arrows, Array.getElem?_modify]
  split
  · cases graph.outgoing[position]? with
    | none => simp
    | some arrows => rfl
  · rfl

/-- Merging a sign into an edge moves no end. -/
@[simp] theorem targets_mergeAt (graph : Graph V) (source slot position : Nat) (sign : Polarity) :
    (graph.mergeAt source slot sign).targets position = graph.targets position := by
  rw [targets, targets, arrows_mergeAt]
  split
  · apply List.ext_getElem?
    intro i
    simp only [List.getElem?_map, Array.getElem?_toList, Array.getElem?_modify]
    split
    · cases (graph.arrows position)[i]? <;> rfl
    · rfl
  · rfl

theorem WellFormed.mergeAt (wellFormed : graph.WellFormed) (source slot : Nat) (sign : Polarity) :
    (graph.mergeAt source slot sign).WellFormed where
  vertices_nodup := wellFormed.vertices_nodup
  places_eq := wellFormed.places_eq
  outgoing_size := Array.size_modify.trans wellFormed.outgoing_size
  incoming_size := wellFormed.incoming_size
  slots_size := wellFormed.slots_size
  target_lt leads := wellFormed.target_lt (by rwa [targets_mergeAt] at leads)
  targets_nodup position := by
    rw [targets_mergeAt]
    exact wellFormed.targets_nodup position
  slotsFrom_eq position := by
    rw [targets_mergeAt]
    exact wellFormed.slotsFrom_eq position
  sources_nodup := wellFormed.sources_nodup
  mem_sources_iff := by
    intro position target
    rw [targets_mergeAt]
    exact wellFormed.mem_sources_iff

theorem arrows_link {source : Nat} (bound : source < graph.outgoing.size) (target : Nat)
    (sign : Polarity) (position : Nat) :
    (graph.link source target sign).arrows position =
      if source = position then (graph.arrows position).push ⟨target, sign⟩
      else graph.arrows position := by
  simp only [link, arrows, Array.getElem?_modify]
  split
  · rename_i same
    simp [← same, bound]
  · rfl

theorem targets_link {source : Nat} (bound : source < graph.outgoing.size) (target : Nat)
    (sign : Polarity) (position : Nat) :
    (graph.link source target sign).targets position =
      if source = position then graph.targets position ++ [target]
      else graph.targets position := by
  rw [targets, arrows_link bound]
  split
  · rw [Array.toList_push, List.map_append, List.map_singleton, targets]
  · rfl

theorem sources_link {target : Nat} (bound : target < graph.incoming.size) (source : Nat)
    (sign : Polarity) (position : Nat) :
    (graph.link source target sign).sources position =
      if target = position then (graph.sources position).push source
      else graph.sources position := by
  simp only [link, sources, Array.getElem?_modify]
  split
  · rename_i same
    simp [← same, bound]
  · rfl

theorem slotsFrom_link {source : Nat} (bound : source < graph.slots.size) (target : Nat)
    (sign : Polarity) (position : Nat) :
    (graph.link source target sign).slotsFrom position =
      if source = position then graph.slotsFrom position ++ [(target, (graph.arrows source).size)]
      else graph.slotsFrom position := by
  simp only [link, slotsFrom, Array.getElem?_modify]
  split
  · rename_i same
    simp [← same, bound]
  · rfl

/-- Linking two positions that are not linked keeps the tables in step. -/
theorem WellFormed.link (wellFormed : graph.WellFormed) {source target : Nat}
    (sourceBound : source < graph.vertices.size) (targetBound : target < graph.vertices.size)
    (new : target ∉ graph.targets source) (sign : Polarity) :
    (graph.link source target sign).WellFormed := by
  have targets := targets_link (wellFormed.outgoing_size ▸ sourceBound) target sign
  have sources := sources_link (wellFormed.incoming_size ▸ targetBound) source sign
  have slots := slotsFrom_link (wellFormed.slots_size ▸ sourceBound) target sign
  exact
    { vertices_nodup := wellFormed.vertices_nodup
      places_eq := wellFormed.places_eq
      outgoing_size := Array.size_modify.trans wellFormed.outgoing_size
      incoming_size := Array.size_modify.trans wellFormed.incoming_size
      slots_size := Array.size_modify.trans wellFormed.slots_size
      target_lt := by
        intro position other leads
        rw [targets] at leads
        split at leads
        · rcases List.mem_append.mp leads with old | last
          · exact wellFormed.target_lt old
          · rw [List.mem_singleton.mp last]
            exact targetBound
        · exact wellFormed.target_lt leads
      targets_nodup := by
        intro position
        rw [targets]
        split
        · rename_i same
          rw [List.nodup_append]
          refine ⟨wellFormed.targets_nodup position, List.nodup_singleton target, ?_⟩
          rintro other old _ last rfl
          exact new (same ▸ List.mem_singleton.mp last ▸ old)
        · exact wellFormed.targets_nodup position
      slotsFrom_eq := by
        intro position
        rw [slots, targets]
        split
        · -- The new edge stands in the slot after the last one.
          rename_i same
          subst same
          simp [wellFormed.slotsFrom_eq, List.zipIdx_append, Graph.targets]
        · exact wellFormed.slotsFrom_eq position
      sources_nodup := by
        intro position
        rw [sources]
        split
        · rename_i same
          rw [Array.toList_push, List.nodup_append]
          refine ⟨wellFormed.sources_nodup position, List.nodup_singleton source, ?_⟩
          rintro other old _ last rfl
          rw [List.mem_singleton] at last
          -- A source that is entered already stands for an edge to the same target.
          exact new (same ▸ wellFormed.mem_sources_iff.mp (last ▸ Array.mem_toList_iff.mp old))
        · exact wellFormed.sources_nodup position
      mem_sources_iff := by
        intro position place
        rw [targets, sources]
        have old := @wellFormed.mem_sources_iff position place
        by_cases atSource : source = position <;> by_cases atTarget : target = place <;>
          simp [atSource, atTarget, old, eq_comm] }

section Insert

variable [DecidableEq V]

/-- An edge is either merged into the one that is there or linked anew, after both of its ends
have been added. -/
theorem insertEdge_cases (graph : Graph V) (edge : Edge V) :
    let withSource := graph.insertVertex edge.source
    let withTarget := withSource.2.insertVertex edge.target
    (∃ slot, withTarget.2.slot? withSource.1 withTarget.1 = some slot ∧
      graph.insertEdge edge = withTarget.2.mergeAt withSource.1 slot edge.polarity) ∨
    (withTarget.2.slot? withSource.1 withTarget.1 = none ∧
      graph.insertEdge edge = withTarget.2.link withSource.1 withTarget.1 edge.polarity) := by
  intro withSource withTarget
  cases found : withTarget.2.slot? withSource.1 withTarget.1 with
  | some slot =>
    exact Or.inl ⟨slot, rfl, by simp only [insertEdge]; rw [found]⟩
  | none =>
    exact Or.inr ⟨rfl, by simp only [insertEdge]; rw [found]⟩

/-- Once both ends of an edge have been added, each stands where its insertion says. -/
theorem WellFormed.getElem?_insertVertex_ends (wellFormed : graph.WellFormed) (source target : V) :
    let withSource := graph.insertVertex source
    let withTarget := withSource.2.insertVertex target
    withTarget.2.vertices[withSource.1]? = some source ∧
      withTarget.2.vertices[withTarget.1]? = some target :=
  ⟨getElem?_insertVertex (wellFormed.getElem?_insertVertex_self source) target,
    (wellFormed.insertVertex source).getElem?_insertVertex_self target⟩

theorem WellFormed.insertEdge (wellFormed : graph.WellFormed) (edge : Edge V) :
    (graph.insertEdge edge).WellFormed := by
  have grown := (wellFormed.insertVertex edge.source).insertVertex edge.target
  obtain ⟨slot, -, merged⟩ | ⟨new, linked⟩ := insertEdge_cases graph edge
  · rw [merged]
    exact grown.mergeAt _ slot edge.polarity
  · rw [linked]
    obtain ⟨atSource, atTarget⟩ := wellFormed.getElem?_insertVertex_ends edge.source edge.target
    exact grown.link (Array.getElem?_eq_some_iff.mp atSource).1
      (Array.getElem?_eq_some_iff.mp atTarget).1 (grown.slot?_eq_none_iff.mp new) edge.polarity

theorem WellFormed.insert (wellFormed : graph.WellFormed) (insertion : Insertion V) :
    (graph.insert insertion).WellFormed := by
  cases insertion with
  | vertex label => exact wellFormed.insertVertex label
  | edge edge => exact wellFormed.insertEdge edge

/-- Whatever is inserted, the tables stay in step. -/
theorem wellFormed_ofInsertions (log : List (Insertion V)) : (ofInsertions log).WellFormed := by
  have grow : ∀ graph : Graph V, graph.WellFormed → (log.foldl Graph.insert graph).WellFormed := by
    induction log with
    | nil => exact fun _ wellFormed => wellFormed
    | cons insertion rest ih =>
      exact fun graph wellFormed => ih _ (wellFormed.insert insertion)
  exact grow empty wellFormed_empty

end Insert

end Graph

end DatalogStrata
