import DatalogStrata.Proofs.Graph.WellFormed

/-!
# What a graph lists

Above its tables a graph is known by its vertices and by the sign, if any, between two labels. Each
listing says the same about the edges, and what an insertion changes is said in these terms alone:
the graph that a log builds has exactly the vertices and edges that the log mentions, and an edge
is negative exactly when the log makes it negative somewhere.

## Main definitions

* `Insertion.Mentions` — the labels that an insertion mentions
* `Graph.HasEdge` — an edge of either sign leads from one vertex to another

## Main results

* `Graph.WellFormed.mem_edges_iff`, `Graph.WellFormed.mem_successors_iff`,
  `Graph.WellFormed.mem_predecessors_iff` — the listings by the sign between two labels
* `Graph.WellFormed.edges_eq` — the edges as the vertices list them
* `Graph.WellFormed.polarity?_insertEdge` — what an inserted edge changes
* `Graph.mem_vertices_ofInsertions`, `Graph.hasEdge_ofInsertions`,
  `Graph.negative_ofInsertions` — the graph of a log
-/

namespace DatalogStrata

/-- The labels that an insertion mentions. -/
def Insertion.Mentions {V : Type} : Insertion V → V → Prop
  | .vertex other, label => label = other
  | .edge inserted, label => label = inserted.source ∨ label = inserted.target

namespace Graph

variable {V : Type} {graph : Graph V}

/-- An edge leads from one vertex to another. -/
def HasEdge (graph : Graph V) (source target : V) : Prop :=
  ∃ sign, (⟨source, target, sign⟩ : Edge V) ∈ graph.edges

theorem labelled?_eq_some_iff {arrow : Arrow} {label : V} {sign : Polarity} :
    graph.labelled? arrow = some (label, sign) ↔
      graph.vertices[arrow.target]? = some label ∧ arrow.polarity = sign := by
  simp [labelled?]

theorem mem_vertices_of_hasEdge {u v : V} (edge : graph.HasEdge u v) :
    u ∈ graph.vertices ∧ v ∈ graph.vertices := by
  obtain ⟨sign, listed⟩ := edge
  simp only [edges, List.mem_flatMap, List.mem_map, List.mem_filterMap, labelled?_eq_some_iff,
    Prod.exists, Edge.mk.injEq] at listed
  obtain ⟨source, arrows, zipped, target, _, ⟨arrow, -, atTarget, -⟩, rfl, rfl, -⟩ := listed
  exact ⟨Array.mem_toList_iff.mp (List.of_mem_zip zipped).1, Array.mem_of_getElem? atTarget⟩

/-- Different positions hold different labels. -/
theorem WellFormed.nodup_filterMap_vertices (wellFormed : graph.WellFormed) {positions : List Nat}
    (distinct : positions.Nodup) : (positions.filterMap (graph.vertices[·]?)).Nodup := by
  refine List.Nodup.filterMap ?_ distinct
  intro i j label atI atJ
  exact wellFormed.position_unique atI atJ

variable [DecidableEq V] {u v : V} {sign : Polarity}

/-- The sign between two labels is the sign of the arrow between their positions. -/
theorem WellFormed.polarity?_eq_some_iff (wellFormed : graph.WellFormed) :
    graph.polarity? u v = some sign ↔ ∃ source target : Nat,
      graph.vertices[source]? = some u ∧ graph.vertices[target]? = some v ∧
        ⟨target, sign⟩ ∈ graph.arrows source := by
  constructor
  · intro found
    simp only [polarity?, Option.bind_eq_bind, Option.bind_eq_some_iff, Option.pure_def,
      Option.some_inj] at found
    obtain ⟨source, atSource, target, atTarget, slot, atSlot, arrow, atArrow, rfl⟩ := found
    obtain ⟨other, atOther, rfl⟩ := wellFormed.exists_of_slot? atSlot
    obtain rfl : arrow = other := Option.some_inj.mp (atArrow.symm.trans atOther)
    exact ⟨source, arrow.target, wellFormed.position?_eq_some_iff.mp atSource,
      wellFormed.position?_eq_some_iff.mp atTarget, Array.mem_of_getElem? atArrow⟩
  · rintro ⟨source, target, atSource, atTarget, leaves⟩
    have foundSource := wellFormed.position?_eq_some_iff.mpr atSource
    have foundTarget := wellFormed.position?_eq_some_iff.mpr atTarget
    obtain ⟨slot, foundSlot⟩ : ∃ slot, graph.slot? source target = some slot := by
      rw [← Option.isSome_iff_exists, Option.isSome_iff_ne_none, Ne, wellFormed.slot?_eq_none_iff,
        not_not]
      exact mem_targets_iff.mpr ⟨_, leaves, rfl⟩
    obtain ⟨other, atOther, same⟩ := wellFormed.exists_of_slot? foundSlot
    obtain rfl := wellFormed.arrow_unique (Array.mem_of_getElem? atOther) leaves same
    simp [polarity?, foundSource, foundTarget, foundSlot, atOther]

/-! ## Listings -/

/-- The listed edges are those with a sign between their ends. -/
theorem WellFormed.mem_edges_iff (wellFormed : graph.WellFormed) :
    (⟨u, v, sign⟩ : Edge V) ∈ graph.edges ↔ graph.polarity? u v = some sign := by
  rw [wellFormed.polarity?_eq_some_iff]
  have sizes : graph.vertices.toList.length = graph.outgoing.toList.length := by
    rw [Array.length_toList, Array.length_toList, wellFormed.outgoing_size]
  -- The listing runs over the vertices and their arrows side by side.
  have paired {source : V} {leaving : Array Arrow} :
      (source, leaving) ∈ graph.vertices.toList.zip graph.outgoing.toList ↔
        ∃ position : Nat, graph.vertices[position]? = some source ∧
          graph.outgoing[position]? = some leaving := by
    simp only [List.mem_iff_getElem?, List.getElem?_zip_eq_some, Array.getElem?_toList]
  simp only [edges, List.mem_flatMap, Prod.exists, List.mem_map, List.mem_filterMap,
    Array.mem_toList_iff, labelled?_eq_some_iff, Edge.mk.injEq, paired]
  constructor
  · rintro ⟨_, leaving, ⟨source, atSource, kept⟩, _, _, ⟨arrow, leaves, atTarget, rfl⟩, rfl, rfl,
      rfl⟩
    refine ⟨source, arrow.target, atSource, atTarget, ?_⟩
    rw [arrows, kept]
    exact leaves
  · rintro ⟨source, target, atSource, atTarget, leaves⟩
    have bound := (Array.getElem?_eq_some_iff.mp atSource).1
    rw [← wellFormed.outgoing_size] at bound
    have kept : graph.outgoing[source]? = some (graph.arrows source) := by
      rw [arrows, Array.getElem?_eq_getElem bound, Option.getD_some]
    exact ⟨u, _, ⟨source, atSource, kept⟩, v, sign, ⟨_, leaves, atTarget, rfl⟩, rfl, rfl, rfl⟩

/-- The edges are listed source by source, as each of the vertices lists those that leave it. -/
theorem WellFormed.edges_eq (wellFormed : graph.WellFormed) :
    graph.edges = graph.vertices.toList.flatMap fun source =>
      (graph.successorEdges source).map fun next => ⟨source, next.1, next.2⟩ := by
  have sizes : graph.vertices.toList.length ≤ graph.outgoing.toList.length := by
    simp [wellFormed.outgoing_size]
  conv_rhs => rw [← List.map_fst_zip sizes, List.flatMap_map]
  refine List.flatMap_congr fun pair zipped => ?_
  obtain ⟨position, placed⟩ := List.mem_iff_getElem?.mp zipped
  obtain ⟨atSource, kept⟩ := List.getElem?_zip_eq_some.mp placed
  rw [Array.getElem?_toList] at atSource kept
  have found := wellFormed.position?_eq_some_iff.mpr atSource
  simp only [successorEdges, found, arrows, kept, Option.getD_some]

theorem WellFormed.hasEdge_iff (wellFormed : graph.WellFormed) :
    graph.HasEdge u v ↔ ∃ sign, graph.polarity? u v = some sign :=
  exists_congr fun _ => wellFormed.mem_edges_iff

/-- Every edge has one sign: it is positive unless it is negative. -/
theorem WellFormed.positive_iff (wellFormed : graph.WellFormed) :
    (⟨u, v, .positive⟩ : Edge V) ∈ graph.edges ↔
      graph.HasEdge u v ∧ (⟨u, v, .negative⟩ : Edge V) ∉ graph.edges := by
  simp only [wellFormed.hasEdge_iff, wellFormed.mem_edges_iff]
  cases graph.polarity? u v with
  | none => simp
  | some sign => cases sign <;> simp

/-- Edges by positions: one position leads to another when their labels have an edge. -/
theorem WellFormed.hasEdge_iff_targets (wellFormed : graph.WellFormed) :
    graph.HasEdge u v ↔ ∃ source target : Nat, graph.vertices[source]? = some u ∧
      graph.vertices[target]? = some v ∧ target ∈ graph.targets source := by
  simp only [wellFormed.hasEdge_iff, wellFormed.polarity?_eq_some_iff, mem_targets_iff]
  constructor
  · rintro ⟨sign, source, target, atSource, atTarget, leaves⟩
    exact ⟨source, target, atSource, atTarget, _, leaves, rfl⟩
  · rintro ⟨source, target, atSource, atTarget, arrow, leaves, rfl⟩
    exact ⟨arrow.polarity, source, arrow.target, atSource, atTarget, leaves⟩

theorem WellFormed.mem_successorEdges_iff (wellFormed : graph.WellFormed) :
    (v, sign) ∈ graph.successorEdges u ↔ graph.polarity? u v = some sign := by
  rw [wellFormed.polarity?_eq_some_iff, successorEdges]
  split
  · rename_i position found
    rw [wellFormed.position?_eq_some_iff] at found
    simp only [List.mem_filterMap, Array.mem_toList_iff, labelled?_eq_some_iff]
    constructor
    · rintro ⟨arrow, leaves, atTarget, rfl⟩
      exact ⟨position, arrow.target, found, atTarget, leaves⟩
    · rintro ⟨source, target, atSource, atTarget, leaves⟩
      obtain rfl := wellFormed.position_unique found atSource
      exact ⟨_, leaves, atTarget, rfl⟩
  · rename_i missing
    rw [wellFormed.position?_eq_none_iff] at missing
    simp only [List.not_mem_nil, false_iff]
    rintro ⟨source, target, atSource, -⟩
    exact missing (Array.mem_of_getElem? atSource)

theorem WellFormed.mem_successors_iff (wellFormed : graph.WellFormed) :
    v ∈ graph.successors u ↔ graph.HasEdge u v := by
  simp only [successors, List.mem_map, Prod.exists, exists_and_right, exists_eq_right,
    wellFormed.hasEdge_iff, wellFormed.mem_successorEdges_iff]

theorem WellFormed.mem_predecessors_iff (wellFormed : graph.WellFormed) :
    u ∈ graph.predecessors v ↔ graph.HasEdge u v := by
  rw [wellFormed.hasEdge_iff_targets, predecessors]
  split
  · rename_i position found
    rw [wellFormed.position?_eq_some_iff] at found
    simp only [List.mem_filterMap, Array.mem_toList_iff, wellFormed.mem_sources_iff]
    constructor
    · rintro ⟨source, leads, atSource⟩
      exact ⟨source, position, atSource, found, leads⟩
    · rintro ⟨source, target, atSource, atTarget, leads⟩
      obtain rfl := wellFormed.position_unique found atTarget
      exact ⟨source, leads, atSource⟩
  · rename_i missing
    rw [wellFormed.position?_eq_none_iff] at missing
    simp only [List.not_mem_nil, false_iff]
    rintro ⟨source, target, -, atTarget, -⟩
    exact missing (Array.mem_of_getElem? atTarget)

/-- The successors of a vertex are the labels of the positions to which its edges lead. -/
theorem successors_of_position? {label : V} {position : Nat}
    (found : graph.position? label = some position) :
    graph.successors label = (graph.targets position).filterMap (graph.vertices[·]?) := by
  have labelled (arrow : Arrow) :
      (graph.labelled? arrow).map Prod.fst = graph.vertices[arrow.target]? := by
    rw [labelled?, Option.map_map]
    exact Option.map_id'
  simp only [successors, successorEdges, found, targets, List.map_filterMap, List.filterMap_map,
    labelled, Function.comp_def]

/-! ### No neighbour is listed twice -/

theorem WellFormed.successors_nodup (wellFormed : graph.WellFormed) (label : V) :
    (graph.successors label).Nodup := by
  cases found : graph.position? label with
  | none =>
    rw [successors, successorEdges, found]
    exact List.nodup_nil
  | some position =>
    rw [successors_of_position? found]
    exact wellFormed.nodup_filterMap_vertices (wellFormed.targets_nodup position)

theorem WellFormed.predecessors_nodup (wellFormed : graph.WellFormed) (label : V) :
    (graph.predecessors label).Nodup := by
  rw [predecessors]
  split
  · rename_i position _
    exact wellFormed.nodup_filterMap_vertices (wellFormed.sources_nodup position)
  · exact List.nodup_nil

/-! ## What an insertion changes -/

theorem WellFormed.polarity?_insertVertex (wellFormed : graph.WellFormed) (label u v : V) :
    (graph.insertVertex label).2.polarity? u v = graph.polarity? u v := by
  ext sign
  rw [(wellFormed.insertVertex label).polarity?_eq_some_iff, wellFormed.polarity?_eq_some_iff]
  simp only [arrows_insertVertex]
  constructor
  · rintro ⟨source, target, atSource, atTarget, leaves⟩
    -- The ends of an old edge are old, so they are still where they were.
    have leads := mem_targets_iff.mpr ⟨_, leaves, rfl⟩
    have oldSource := Array.getElem?_eq_getElem (wellFormed.source_lt leads)
    have oldTarget := Array.getElem?_eq_getElem (wellFormed.target_lt leads)
    refine ⟨source, target, ?_, ?_, leaves⟩
    · rw [oldSource, ← getElem?_insertVertex oldSource, atSource]
    · rw [oldTarget, ← getElem?_insertVertex oldTarget, atTarget]
  · rintro ⟨source, target, atSource, atTarget, leaves⟩
    exact ⟨source, target, getElem?_insertVertex atSource _, getElem?_insertVertex atTarget _, leaves⟩

/-- Tables over the same vertices that hold the same arrows between other positions give the same
sign between other labels. -/
theorem WellFormed.polarity?_congr {other : Graph V} (wellFormed : graph.WellFormed)
    (otherFormed : other.WellFormed) (vertices : other.vertices = graph.vertices)
    {source target : Nat} (atSource : graph.vertices[source]? = some u)
    (atTarget : graph.vertices[target]? = some v)
    (arrows : ∀ position arrow, ¬ (position = source ∧ arrow.target = target) →
      (arrow ∈ other.arrows position ↔ arrow ∈ graph.arrows position))
    {a b : V} (different : ¬ (a = u ∧ b = v)) :
    other.polarity? a b = graph.polarity? a b := by
  ext sign
  rw [otherFormed.polarity?_eq_some_iff, wellFormed.polarity?_eq_some_iff, vertices]
  refine exists₂_congr fun i j => and_congr_right fun atI => and_congr_right fun atJ =>
    arrows i ⟨j, sign⟩ ?_
  rintro ⟨rfl, rfl⟩
  exact different ⟨Option.some_inj.mp (atI.symm.trans atSource),
    Option.some_inj.mp (atJ.symm.trans atTarget)⟩

theorem WellFormed.polarity?_mergeAt (wellFormed : graph.WellFormed) {source target slot : Nat}
    (atSource : graph.vertices[source]? = some u) (atTarget : graph.vertices[target]? = some v)
    (found : graph.slot? source target = some slot) (sign : Polarity) (a b : V) :
    (graph.mergeAt source slot sign).polarity? a b =
      if a = u ∧ b = v then some (((graph.polarity? a b).map (·.merge sign)).getD sign)
      else graph.polarity? a b := by
  have merged := wellFormed.mergeAt source slot sign
  obtain ⟨arrow, atSlot, rfl⟩ := wellFormed.exists_of_slot? found
  split
  · rename_i ends
    obtain ⟨rfl, rfl⟩ := ends
    have old : graph.polarity? a b = some arrow.polarity :=
      wellFormed.polarity?_eq_some_iff.mpr
        ⟨source, arrow.target, atSource, atTarget, Array.mem_of_getElem? atSlot⟩
    rw [old, Option.map_some, Option.getD_some, merged.polarity?_eq_some_iff]
    refine ⟨source, arrow.target, atSource, atTarget, Array.mem_of_getElem? (i := slot) ?_⟩
    rw [arrows_mergeAt, if_pos rfl, Array.getElem?_modify, if_pos rfl, atSlot, Option.map_some]
  · rename_i different
    refine wellFormed.polarity?_congr merged rfl atSource atTarget ?_ different
    intro position other elsewhere
    rw [arrows_mergeAt]
    split
    · rename_i same
      subst same
      -- Only the slot of the merged edge changes, and it keeps its target.
      simp only [Array.mem_iff_getElem?, Array.getElem?_modify]
      refine exists_congr fun i => ?_
      split
      · rename_i here
        subst here
        rw [atSlot]
        simp only [Option.map_some, Option.some_inj]
        constructor
        · rintro rfl
          exact absurd ⟨rfl, rfl⟩ elsewhere
        · rintro rfl
          exact absurd ⟨rfl, rfl⟩ elsewhere
      · rfl
    · rfl

theorem WellFormed.polarity?_link (wellFormed : graph.WellFormed) {source target : Nat}
    (atSource : graph.vertices[source]? = some u) (atTarget : graph.vertices[target]? = some v)
    (new : target ∉ graph.targets source) (sign : Polarity) (a b : V) :
    (graph.link source target sign).polarity? a b =
      if a = u ∧ b = v then some (((graph.polarity? a b).map (·.merge sign)).getD sign)
      else graph.polarity? a b := by
  have sourceBound := (Array.getElem?_eq_some_iff.mp atSource).1
  have targetBound := (Array.getElem?_eq_some_iff.mp atTarget).1
  have linked := wellFormed.link sourceBound targetBound new sign
  have arrows := arrows_link (wellFormed.outgoing_size ▸ sourceBound) target sign
  split
  · rename_i ends
    obtain ⟨rfl, rfl⟩ := ends
    have old : graph.polarity? a b = none := by
      rw [Option.eq_none_iff_forall_ne_some]
      intro sign found
      obtain ⟨i, j, atI, atJ, leaves⟩ := wellFormed.polarity?_eq_some_iff.mp found
      obtain rfl := wellFormed.position_unique atI atSource
      obtain rfl := wellFormed.position_unique atJ atTarget
      exact new (mem_targets_iff.mpr ⟨_, leaves, rfl⟩)
    rw [old, Option.map_none, Option.getD_none, linked.polarity?_eq_some_iff]
    refine ⟨source, target, atSource, atTarget, ?_⟩
    rw [arrows, if_pos rfl]
    exact Array.mem_push_self
  · rename_i different
    refine wellFormed.polarity?_congr linked rfl atSource atTarget ?_ different
    intro position other elsewhere
    rw [arrows]
    split
    · rename_i same
      rw [Array.mem_push, or_iff_left]
      rintro rfl
      exact elsewhere ⟨same.symm, rfl⟩
    · rfl

/-- An inserted edge gives its ends its sign, merged with the one that they have. -/
theorem WellFormed.polarity?_insertEdge (wellFormed : graph.WellFormed) (edge : Edge V)
    (a b : V) :
    (graph.insertEdge edge).polarity? a b =
      if a = edge.source ∧ b = edge.target then
        some (((graph.polarity? a b).map (·.merge edge.polarity)).getD edge.polarity)
      else graph.polarity? a b := by
  have withSource := wellFormed.insertVertex edge.source
  have withTarget := withSource.insertVertex edge.target
  obtain ⟨atSource, atTarget⟩ := wellFormed.getElem?_insertVertex_ends edge.source edge.target
  -- Adding its ends changes no sign, so only the edge itself matters.
  have kept : ((graph.insertVertex edge.source).2.insertVertex edge.target).2.polarity? a b =
      graph.polarity? a b := by
    rw [withSource.polarity?_insertVertex, wellFormed.polarity?_insertVertex]
  rw [← kept]
  obtain ⟨slot, found, merged⟩ | ⟨new, linked⟩ := insertEdge_cases graph edge
  · rw [merged]
    exact withTarget.polarity?_mergeAt atSource atTarget found edge.polarity a b
  · rw [linked]
    exact withTarget.polarity?_link atSource atTarget (withTarget.slot?_eq_none_iff.mp new)
      edge.polarity a b

theorem vertices_insertEdge (graph : Graph V) (edge : Edge V) : (graph.insertEdge edge).vertices =
    ((graph.insertVertex edge.source).2.insertVertex edge.target).2.vertices := by
  obtain ⟨slot, -, merged⟩ | ⟨-, linked⟩ := insertEdge_cases graph edge
  · rw [merged]
    rfl
  · rw [linked]
    rfl

theorem WellFormed.mem_vertices_insertEdge (wellFormed : graph.WellFormed) {edge : Edge V}
    {label : V} : label ∈ (graph.insertEdge edge).vertices ↔
      label ∈ graph.vertices ∨ label = edge.source ∨ label = edge.target := by
  rw [vertices_insertEdge, (wellFormed.insertVertex edge.source).mem_vertices_insertVertex,
    wellFormed.mem_vertices_insertVertex, or_assoc]

/-! ## The graph of a log -/

/-- A property that each insertion either keeps or makes by itself holds of the graph of a log
exactly when some insertion of the log makes it. -/
theorem ofInsertions_iff {P : Graph V → Prop} {made : Insertion V → Prop}
    (nothing : ¬ P empty)
    (step : ∀ graph : Graph V, graph.WellFormed → ∀ insertion,
      P (graph.insert insertion) ↔ P graph ∨ made insertion)
    (log : List (Insertion V)) :
    P (ofInsertions log) ↔ ∃ insertion ∈ log, made insertion := by
  have run : ∀ graph : Graph V, graph.WellFormed →
      (P (log.foldl Graph.insert graph) ↔ P graph ∨ ∃ insertion ∈ log, made insertion) := by
    induction log with
    | nil => simp
    | cons first rest ih =>
      intro graph wellFormed
      rw [List.foldl_cons, ih _ (wellFormed.insert first), step graph wellFormed, or_assoc,
        List.exists_mem_cons_iff]
  rw [ofInsertions, run empty wellFormed_empty, or_iff_right nothing]

/-- The vertices are the labels that the log mentions, alone or as an end of an edge. -/
theorem mem_vertices_ofInsertions {log : List (Insertion V)} {label : V} :
    label ∈ (ofInsertions log).vertices ↔ ∃ insertion ∈ log, insertion.Mentions label := by
  refine ofInsertions_iff (P := fun graph => label ∈ graph.vertices) (by simp [empty]) ?_ log
  intro graph wellFormed insertion
  cases insertion with
  | vertex other => exact wellFormed.mem_vertices_insertVertex
  | edge edge => exact wellFormed.mem_vertices_insertEdge

theorem WellFormed.hasEdge_insert (wellFormed : graph.WellFormed) (insertion : Insertion V) :
    (graph.insert insertion).HasEdge u v ↔
      graph.HasEdge u v ∨ ∃ sign, insertion = .edge ⟨u, v, sign⟩ := by
  rw [(wellFormed.insert insertion).hasEdge_iff, wellFormed.hasEdge_iff]
  cases insertion with
  | vertex label =>
    simp only [Graph.insert, wellFormed.polarity?_insertVertex, reduceCtorEq, exists_false, or_false]
  | edge edge =>
    obtain ⟨source, target, sign⟩ := edge
    simp only [Graph.insert, wellFormed.polarity?_insertEdge, Insertion.edge.injEq, Edge.mk.injEq]
    split
    · rename_i ends
      simp [ends]
    · rename_i different
      constructor
      · exact Or.inl
      · rintro (old | ⟨_, rfl, rfl, rfl⟩)
        · exact old
        · exact absurd ⟨rfl, rfl⟩ different

/-- The edges are those that the log inserts. -/
theorem hasEdge_ofInsertions {log : List (Insertion V)} :
    (ofInsertions log).HasEdge u v ↔ ∃ sign, .edge ⟨u, v, sign⟩ ∈ log := by
  rw [ofInsertions_iff (P := fun graph => graph.HasEdge u v) (by simp [HasEdge, edges, empty])
    fun graph wellFormed insertion => wellFormed.hasEdge_insert insertion]
  constructor
  · rintro ⟨_, inserted, sign, rfl⟩
    exact ⟨sign, inserted⟩
  · rintro ⟨sign, inserted⟩
    exact ⟨_, inserted, sign, rfl⟩

theorem WellFormed.negative_insert (wellFormed : graph.WellFormed) (insertion : Insertion V) :
    (graph.insert insertion).polarity? u v = some .negative ↔
      graph.polarity? u v = some .negative ∨ insertion = .edge ⟨u, v, .negative⟩ := by
  cases insertion with
  | vertex label =>
    simp only [Graph.insert, wellFormed.polarity?_insertVertex, reduceCtorEq, or_false]
  | edge edge =>
    obtain ⟨source, target, sign⟩ := edge
    simp only [Graph.insert, wellFormed.polarity?_insertEdge, Insertion.edge.injEq, Edge.mk.injEq]
    split
    · rename_i ends
      obtain ⟨rfl, rfl⟩ := ends
      -- Merged signs are negative when one of them is.
      cases graph.polarity? u v with
      | none => simp
      | some old => cases old <;> cases sign <;> simp [Polarity.merge, Polarity.isNegative]
    · rename_i different
      constructor
      · exact Or.inl
      · rintro (old | ⟨rfl, rfl, rfl⟩)
        · exact old
        · exact absurd ⟨rfl, rfl⟩ different

/-- An edge is negative when the log makes it negative somewhere. -/
theorem negative_ofInsertions {log : List (Insertion V)} :
    (⟨u, v, .negative⟩ : Edge V) ∈ (ofInsertions log).edges ↔ .edge ⟨u, v, .negative⟩ ∈ log := by
  rw [(wellFormed_ofInsertions log).mem_edges_iff,
    ofInsertions_iff (P := fun graph => graph.polarity? u v = some .negative)
      (by simp [polarity?, position?, empty])
      fun graph wellFormed insertion => wellFormed.negative_insert insertion]
  exact exists_eq_right

end Graph

end DatalogStrata
