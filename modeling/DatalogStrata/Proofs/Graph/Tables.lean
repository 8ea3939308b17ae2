import DatalogStrata.Proofs.Graph.Listing

/-!
# Looking through the tables of a graph

A position that one table holds is used as an index into another one, and nothing checks it there.
In a well-formed graph nothing needs to: whatever position or slot is stored is in range, so no
listing drops an edge, and the edges that are listed are as many as there are slots.

## Main results

* `Graph.WellFormed.exists_labelled?` — what an arrow leads to has a label
* `Graph.WellFormed.count_sources` — a source is entered at a target once for its edge
* `Graph.WellFormed.edgeCount_eq` — the slots are as many as the edges
* `Graph.tables_ofInsertions` — how the tables of a graph built by insertions agree
-/

namespace DatalogStrata

namespace Graph

variable {V : Type} {graph : Graph V}

namespace WellFormed

variable (wellFormed : graph.WellFormed)
include wellFormed

theorem slot_lt {source target slot : Nat} (found : graph.slot? source target = some slot) :
    slot < (graph.arrows source).size := by
  obtain ⟨arrow, atSlot, -⟩ := wellFormed.exists_of_slot? found
  exact (Array.getElem?_eq_some_iff.mp atSlot).1

theorem mem_targets_of_slot? {source target slot : Nat}
    (found : graph.slot? source target = some slot) : target ∈ graph.targets source := by
  obtain ⟨arrow, atSlot, leads⟩ := wellFormed.exists_of_slot? found
  exact mem_targets_iff.mpr ⟨arrow, Array.mem_of_getElem? atSlot, leads⟩

/-- The end of an arrow is a vertex and has a label. -/
theorem exists_labelled? {source : Nat} {arrow : Arrow} (leaves : arrow ∈ graph.arrows source) :
    ∃ label, graph.labelled? arrow = some (label, arrow.polarity) := by
  have bound := wellFormed.target_lt (mem_targets_iff.mpr ⟨arrow, leaves, rfl⟩)
  exact ⟨graph.vertices[arrow.target], labelled?_eq_some_iff.mpr
    ⟨Array.getElem?_eq_getElem bound, rfl⟩⟩

theorem lt_of_mem_sources {source target : Nat} (enters : source ∈ graph.sources target) :
    source < graph.vertices.size :=
  wellFormed.source_lt (wellFormed.mem_sources_iff.mp enters)

/-- The source of an edge is entered once at its target, and no other position is. -/
theorem count_sources (source target : Nat) :
    (graph.sources target).toList.count source =
      if (graph.slot? source target).isSome then 1 else 0 := by
  by_cases leads : target ∈ graph.targets source
  · have found : (graph.slot? source target).isSome := by
      rw [Option.isSome_iff_ne_none, ne_eq, wellFormed.slot?_eq_none_iff]
      exact not_not_intro leads
    rw [if_pos found]
    apply List.count_eq_one_of_mem (wellFormed.sources_nodup target)
    exact Array.mem_toList_iff.mpr (wellFormed.mem_sources_iff.mpr leads)
  · have missing := wellFormed.slot?_eq_none_iff.mpr leads
    rw [missing, Option.isSome_none, if_neg Bool.false_ne_true]
    apply List.count_eq_zero_of_not_mem
    rw [Array.mem_toList_iff, wellFormed.mem_sources_iff]
    exact leads

/-! ## Nothing is dropped -/

/-- Every arrow that leaves a position is listed with its label. -/
theorem length_labelled (position : Nat) :
    ((graph.arrows position).toList.filterMap graph.labelled?).length =
      (graph.arrows position).size := by
  rw [← Array.length_toList, List.filterMap_length_eq_length]
  intro arrow leaves
  obtain ⟨label, found⟩ := wellFormed.exists_labelled? (Array.mem_toList_iff.mp leaves)
  simp [found]

theorem length_successorEdges [DecidableEq V] {label : V} {position : Nat}
    (found : graph.position? label = some position) :
    (graph.successorEdges label).length = (graph.arrows position).size := by
  simp only [successorEdges, found]
  exact wellFormed.length_labelled position

theorem length_predecessors [DecidableEq V] {label : V} {position : Nat}
    (found : graph.position? label = some position) :
    (graph.predecessors label).length = (graph.sources position).size := by
  simp only [predecessors, found]
  rw [← Array.length_toList, List.filterMap_length_eq_length]
  intro source enters
  have bound := wellFormed.lt_of_mem_sources (Array.mem_toList_iff.mp enters)
  simp [Array.getElem?_eq_getElem bound]

/-- At each position there are as many slots as arrows. -/
theorem slots_lengths :
    graph.slots.toList.map List.length = graph.outgoing.toList.map Array.size := by
  have sizes : graph.slots.size = graph.outgoing.size :=
    wellFormed.slots_size.trans wellFormed.outgoing_size.symm
  apply List.ext_getElem
  · simpa using sizes
  · intro position bound boundOther
    simp only [List.length_map, Array.length_toList] at bound boundOther
    have entries := congrArg List.length (wellFormed.slotsFrom_eq position)
    simpa [slotsFrom, targets, arrows, bound, boundOther] using entries

/-- The edges that are listed are counted by their slots. -/
theorem edgeCount_eq : graph.edgeCount = graph.edges.length := by
  have sizes : graph.outgoing.toList.length ≤ graph.vertices.toList.length := by
    simp [wellFormed.outgoing_size]
  have listed : ∀ pair ∈ graph.vertices.toList.zip graph.outgoing.toList,
      (pair.2.toList.filterMap graph.labelled?).length = pair.2.size := by
    intro pair zipped
    obtain ⟨position, placed⟩ := List.mem_iff_getElem?.mp zipped
    have kept := (List.getElem?_zip_eq_some.mp placed).2
    have same : graph.arrows position = pair.2 := by
      rw [arrows, ← Array.getElem?_toList, kept, Option.getD_some]
    rw [← same]
    exact wellFormed.length_labelled position
  calc graph.edgeCount
      = (((graph.vertices.toList.zip graph.outgoing.toList).map Prod.snd).map Array.size).sum := by
        rw [edgeCount, ← List.foldl_map, ← List.sum_eq_foldl, wellFormed.slots_lengths,
          List.map_snd_zip sizes]
    _ = graph.edges.length := by
        simp only [edges, List.length_flatMap, List.length_map, List.map_map]
        exact congrArg List.sum (List.map_congr_left fun pair zipped => (listed pair zipped).symm)

end WellFormed

/-- Whatever has been inserted, the tables of a graph agree. The vertices are distinct and each is
entered under its label; each has its lists and slots; what is stored is in range. An edge is
entered under its target in the slot in which it stands, no two edges of a vertex have one target,
and the source of an edge is entered once at its target. There are as many slots as edges, and no
accessor meets an index out of range, so none of them drops what a table holds. -/
theorem tables_ofInsertions [DecidableEq V] (log : List (Insertion V)) :
    let graph := Graph.ofInsertions log
    graph.vertices.toList.Nodup ∧
    graph.places.map Prod.fst = graph.vertices.toList ∧
    (∀ label position, graph.position? label = some position ↔
      graph.vertices[position]? = some label) ∧
    graph.outgoing.size = graph.vertices.size ∧
    graph.incoming.size = graph.vertices.size ∧
    (∀ label position, (label, position) ∈ graph.places → position < graph.vertices.size) ∧
    (∀ source, ∀ arrow ∈ graph.arrows source, arrow.target < graph.vertices.size) ∧
    (∀ target, ∀ source ∈ graph.sources target, source < graph.vertices.size) ∧
    (∀ source target slot, graph.slot? source target = some slot →
      source < graph.vertices.size ∧ target < graph.vertices.size ∧
        slot < (graph.arrows source).size) ∧
    (∀ source, (graph.slotsFrom source).map Prod.fst = graph.targets source) ∧
    (∀ source target slot, graph.slot? source target = some slot ↔
      graph.target? source slot = some target) ∧
    (∀ source, (graph.targets source).Nodup) ∧
    (∀ source target, (graph.sources target).toList.count source =
      if (graph.slot? source target).isSome then 1 else 0) ∧
    graph.edgeCount = graph.edges.length ∧
    (∀ label position, graph.position? label = some position →
      (graph.successorEdges label).length = (graph.arrows position).size ∧
        (graph.predecessors label).length = (graph.sources position).size) ∧
    ∀ u v, (graph.polarity? u v).isSome ↔ ∃ source target slot,
      graph.position? u = some source ∧ graph.position? v = some target ∧
        graph.slot? source target = some slot := by
  intro graph
  have wellFormed : graph.WellFormed := wellFormed_ofInsertions log
  refine ⟨wellFormed.vertices_nodup, ?_, fun _ _ => wellFormed.position?_eq_some_iff,
    wellFormed.outgoing_size, wellFormed.incoming_size, ?_, ?_,
    fun _ _ => wellFormed.lt_of_mem_sources, ?_, ?_, fun _ _ _ => wellFormed.slot?_eq_some_iff,
    wellFormed.targets_nodup, wellFormed.count_sources, wellFormed.edgeCount_eq, ?_, ?_⟩
  · rw [wellFormed.places_eq, List.zipIdx_map_fst]
  · intro label position entered
    rw [wellFormed.places_eq, List.mk_mem_zipIdx_iff_getElem?, Array.getElem?_toList] at entered
    exact (Array.getElem?_eq_some_iff.mp entered).1
  · intro source arrow leaves
    exact wellFormed.target_lt (mem_targets_iff.mpr ⟨arrow, leaves, rfl⟩)
  · intro source target slot found
    have leads := wellFormed.mem_targets_of_slot? found
    exact ⟨wellFormed.source_lt leads, wellFormed.target_lt leads, wellFormed.slot_lt found⟩
  · intro source
    rw [wellFormed.slotsFrom_eq, List.zipIdx_map_fst]
  · intro label position found
    exact ⟨wellFormed.length_successorEdges found, wellFormed.length_predecessors found⟩
  · intro u v
    constructor
    · intro signed
      obtain ⟨sign, found⟩ := Option.isSome_iff_exists.mp signed
      simp only [polarity?, Option.bind_eq_bind, Option.bind_eq_some_iff] at found
      obtain ⟨source, atSource, target, atTarget, slot, atSlot, -⟩ := found
      exact ⟨source, target, slot, atSource, atTarget, atSlot⟩
    · intro placed
      obtain ⟨source, target, slot, atSource, atTarget, atSlot⟩ := placed
      obtain ⟨arrow, found, -⟩ := wellFormed.exists_of_slot? atSlot
      simp [polarity?, atSource, atTarget, atSlot, found]

end Graph

end DatalogStrata
