import DatalogStrata.Proofs.Stratum.Reads

/-!
# Strata by the edges alone

Vertices and edges have an order in a graph, and it decides how the search runs and how components
are numbered. Nothing of it is left in the strata. Graphs that agree on their vertices and on the
sign between any two of them are represented by the same decompositions, and what a stratification
or a rejection tells is the same for all decompositions that represent a graph, up to the numbers of
components and the order in which the edges of a cycle are named.

## Main definitions

* `Graph.Agrees` — two graphs with the same vertices and signs
* `Stratification.Agrees`, `Rejection.Agrees`, `OutcomesAgree` — what two outcomes have in common

## Main results

* `Decomposition.Represents.of_agrees` — a decomposition stands for all graphs that agree
* `Decomposition.Represents.unsafeComponents_agree` — the unsafe components of two decompositions
* `Precedence.stratify_agrees` — graphs that agree have outcomes that agree
-/

namespace DatalogStrata

/-- Two graphs have the same vertices and the same sign, if any, between any two vertices. The order
of the vertices and of the edges is left open. -/
structure Graph.Agrees {V : Type} [DecidableEq V] (graph other : Graph V) : Prop where
  mem_vertices_iff : ∀ v, v ∈ graph.vertices ↔ v ∈ other.vertices
  polarity?_eq : ∀ u v, graph.polarity? u v = other.polarity? u v

namespace Graph.Agrees

variable {graph other : Graph RelationId}

theorem mem_edges_iff (agrees : graph.Agrees other) (wellFormed : graph.WellFormed)
    (otherFormed : other.WellFormed) (edge : Edge RelationId) :
    edge ∈ graph.edges ↔ edge ∈ other.edges := by
  rw [wellFormed.mem_edges_iff, otherFormed.mem_edges_iff, agrees.polarity?_eq]

theorem hasEdge_eq (agrees : graph.Agrees other) (wellFormed : graph.WellFormed)
    (otherFormed : other.WellFormed) : graph.HasEdge = other.HasEdge := by
  ext u v
  exact exists_congr fun sign => agrees.mem_edges_iff wellFormed otherFormed ⟨u, v, sign⟩

theorem reaches_eq (agrees : graph.Agrees other) (wellFormed : graph.WellFormed)
    (otherFormed : other.WellFormed) : graph.Reaches = other.Reaches := by
  rw [Reaches, Reaches, agrees.hasEdge_eq wellFormed otherFormed]

/-- Graphs with the same vertices agree when the same edges are there and the same are negative. -/
theorem of_edges (wellFormed : graph.WellFormed) (otherFormed : other.WellFormed)
    (vertices : ∀ v, v ∈ graph.vertices ↔ v ∈ other.vertices)
    (edges : ∀ u v, graph.HasEdge u v ↔ other.HasEdge u v)
    (negative : ∀ u v, (⟨u, v, .negative⟩ : Edge RelationId) ∈ graph.edges ↔
      (⟨u, v, .negative⟩ : Edge RelationId) ∈ other.edges) : graph.Agrees other where
  mem_vertices_iff := vertices
  polarity?_eq u v := by
    have some_iff := edges u v
    have negative_iff := negative u v
    rw [wellFormed.hasEdge_iff, otherFormed.hasEdge_iff] at some_iff
    rw [wellFormed.mem_edges_iff, otherFormed.mem_edges_iff] at negative_iff
    -- A sign that is there and not negative is positive.
    match first : graph.polarity? u v, second : other.polarity? u v with
    | none, none => rfl
    | some .negative, some .negative => rfl
    | some .positive, some .positive => rfl
    | none, some _ => simp [first, second] at some_iff
    | some _, none => simp [first, second] at some_iff
    | some .negative, some .positive => simp [first, second] at negative_iff
    | some .positive, some .negative => simp [first, second] at negative_iff

end Graph.Agrees

/-! ## Components -/

/-- Two lists with the same keys are related entry by entry when entries at one place with one key
are. -/
theorem forall₂_of_map_eq {α β γ : Type} {related : α → β → Prop} {first : List α}
    {second : List β} {key : α → γ} {otherKey : β → γ}
    (keys : first.map key = second.map otherKey)
    (pointwise : ∀ (place : Nat) (a : α) (b : β), first[place]? = some a →
      second[place]? = some b → key a = otherKey b → related a b) :
    List.Forall₂ related first second := by
  refine List.forall₂_iff_zip.mpr ⟨by simpa using congrArg List.length keys, ?_⟩
  intro a b zipped
  obtain ⟨place, placed⟩ := List.mem_iff_getElem?.mp zipped
  obtain ⟨atFirst, atSecond⟩ := List.getElem?_zip_eq_some.mp placed
  have entry := congrArg (·[place]?) keys
  exact pointwise place a b atFirst atSecond
    (by simpa [List.getElem?_map, atFirst, atSecond] using entry)

/-- Two components have the same members, are recursive alike and have the same negative edges
inside, in whatever order. -/
structure Component.Agrees (component other : Component) : Prop where
  members : component.members = other.members
  recursive : component.recursive = other.recursive
  mem_negativeEdges_iff : ∀ edge, edge ∈ component.negativeEdges ↔ edge ∈ other.negativeEdges

namespace Decomposition.Represents

variable {decomposition other : Decomposition} {graph otherGraph : Graph RelationId}

/-- What a decomposition stands for is said by the vertices and signs of a graph alone. -/
theorem of_agrees (represents : decomposition.Represents graph) (agrees : graph.Agrees otherGraph)
    (wellFormed : graph.WellFormed) (otherFormed : otherGraph.WellFormed) :
    decomposition.Represents otherGraph := by
  have edges := agrees.hasEdge_eq wellFormed otherFormed
  have reaches := agrees.reaches_eq wellFormed otherFormed
  exact
    { covers := fun vertex => represents.covers ((agrees.mem_vertices_iff _).mpr vertex)
      member_vertex := fun found member =>
        (agrees.mem_vertices_iff _).mp (represents.member_vertex found member)
      same_iff := by
        intro i j a b u v foundA foundB inA inB
        rw [← reaches]
        exact represents.same_iff foundA foundB inA inB
      nonempty := represents.nonempty
      ascending := represents.ascending
      recursive_iff := by
        intro id component found
        rw [← edges]
        exact represents.recursive_iff found
      negative_iff := by
        intro id component u v found
        rw [← agrees.mem_edges_iff wellFormed otherFormed]
        exact represents.negative_iff found
      condensation_wellFormed := represents.condensation_wellFormed
      condensation_vertices := represents.condensation_vertices
      condensation_edge_iff := by
        intro i j
        rw [← edges]
        exact represents.condensation_edge_iff }

section Same

variable (represents : decomposition.Represents graph) (representsOther : other.Represents graph)
include represents representsOther

/-- Each component of one decomposition is found in the other. -/
theorem exists_agreeing {component : Component} (member : component ∈ decomposition.components) :
    ∃ same ∈ other.components, component.Agrees same := by
  obtain ⟨place, atPlace⟩ := Array.mem_iff_getElem?.mp member
  have found : decomposition.component? ⟨place⟩ = some component := atPlace
  have inside := Component.firstDeclared_mem (represents.nonempty found)
  obtain ⟨id, same, foundSame, insideSame⟩ :=
    representsOther.covers (represents.member_vertex found inside)
  have sameMembers (v : RelationId) : v ∈ component.members ↔ v ∈ same.members := by
    rw [represents.mem_members_iff_reaches found inside,
      representsOther.mem_members_iff_reaches foundSame insideSame]
  have members : component.members = same.members := by
    apply Array.toList_inj.mp
    apply (represents.ascending found).eq_of_mem_iff (representsOther.ascending foundSame)
    simpa using sameMembers
  refine ⟨same, Array.mem_of_getElem? foundSame, members, ?_, ?_⟩
  · rw [Bool.eq_iff_iff, represents.recursive_iff found, representsOther.recursive_iff foundSame,
      members]
  · intro edge
    obtain ⟨u, v⟩ := edge
    rw [represents.negative_iff found, representsOther.negative_iff foundSame, members]

end Same

section Unsafe

variable (represents : decomposition.Represents graph)
include represents

/-- The unsafe components stand in the order of their first members, each once. -/
theorem unsafeComponents_ascending :
    Ascending ((Precedence.unsafeComponents decomposition).map Component.firstDeclared) := by
  have distinct : decomposition.components.toList.Pairwise
      fun a b => a.firstDeclared ≠ b.firstDeclared := by
    refine List.pairwise_iff_getElem.mpr fun i j boundI boundJ before same => ?_
    have foundI : decomposition.component? ⟨i⟩ = some decomposition.components.toList[i] := by
      simp [component?]
    have foundJ : decomposition.component? ⟨j⟩ = some decomposition.components.toList[j] := by
      simp [component?]
    have equal := congrArg ComponentId.index (represents.firstDeclared_inj foundI foundJ same)
    exact absurd equal (Nat.ne_of_lt before)
  have kept : (Precedence.unsafeComponents decomposition).Pairwise
      fun a b => a.firstDeclared ≠ b.firstDeclared := by
    rw [Precedence.unsafeComponents, (List.mergeSort_perm _ _).pairwise_iff fun h => h.symm]
    exact distinct.filter _
  have sorted : (Precedence.unsafeComponents decomposition).Pairwise
      fun a b => a.firstDeclared ≤ b.firstDeclared := by
    refine (List.pairwise_mergeSort ?_ ?_ _).imp of_decide_eq_true
    · simp only [decide_eq_true_eq, RelationId.le_iff]
      omega
    · simp only [Bool.or_eq_true, decide_eq_true_eq, RelationId.le_iff]
      omega
  exact List.pairwise_map.mpr (sorted.imp₂ (fun _ _ => RelationId.lt_of_le_of_ne) kept)

end Unsafe

/-- Two decompositions of a graph find the same unsafe components in the same order. -/
theorem unsafeComponents_agree (represents : decomposition.Represents graph)
    (representsOther : other.Represents graph) :
    List.Forall₂ Component.Agrees (Precedence.unsafeComponents decomposition)
      (Precedence.unsafeComponents other) := by
  -- An unsafe component has a counterpart, and what makes it unsafe is the same there.
  have counterpart {one another : Decomposition} (representsOne : one.Represents graph)
      (representsAnother : another.Represents graph) {component : Component}
      (member : component ∈ Precedence.unsafeComponents one) :
      ∃ same ∈ Precedence.unsafeComponents another, component.Agrees same := by
    rw [Precedence.mem_unsafeComponents_iff, Array.mem_toList_iff] at member
    obtain ⟨inOne, recursive, negative⟩ := member
    obtain ⟨same, inAnother, agrees⟩ := representsOne.exists_agreeing representsAnother inOne
    refine ⟨same, Precedence.mem_unsafeComponents_iff.mpr
      ⟨Array.mem_toList_iff.mpr inAnother, agrees.recursive ▸ recursive, ?_⟩, agrees⟩
    obtain ⟨edge, inside⟩ := List.exists_mem_of_ne_nil _ negative
    exact List.ne_nil_of_mem ((agrees.mem_negativeEdges_iff edge).mp inside)
  have firsts {component same : Component} (agrees : component.Agrees same) :
      component.firstDeclared = same.firstDeclared := by
    rw [Component.firstDeclared, Component.firstDeclared, agrees.members]
  have keys : (Precedence.unsafeComponents decomposition).map Component.firstDeclared =
      (Precedence.unsafeComponents other).map Component.firstDeclared := by
    apply represents.unsafeComponents_ascending.eq_of_mem_iff
      representsOther.unsafeComponents_ascending
    intro v
    simp only [List.mem_map]
    constructor
    · intro named
      obtain ⟨component, member, rfl⟩ := named
      obtain ⟨same, inside, agrees⟩ := counterpart represents representsOther member
      exact ⟨same, inside, (firsts agrees).symm⟩
    · intro named
      obtain ⟨component, member, rfl⟩ := named
      obtain ⟨same, inside, agrees⟩ := counterpart representsOther represents member
      exact ⟨same, inside, (firsts agrees).symm⟩
  refine forall₂_of_map_eq keys fun place component same atPlace atPlaceSame first => ?_
  -- The counterpart has the first member of the component at the same place, so it is that one.
  obtain ⟨found, inside, agrees⟩ :=
    counterpart represents representsOther (List.mem_of_getElem? atPlace)
  have ascending := representsOther.unsafeComponents_ascending
  have unique : found = same := List.inj_on_of_nodup_map ascending.nodup inside
    (List.mem_of_getElem? atPlaceSame) ((firsts agrees).symm.trans first)
  exact unique ▸ agrees

end Decomposition.Represents

/-! ## Outcomes -/

/-- Two strata tell the same, but for the numbers of their components. -/
structure Stratum.Agrees (stratum other : Stratum) : Prop where
  relations : stratum.relations = other.relations
  recursive : stratum.recursive = other.recursive
  enter : stratum.enter = other.enter
  iterative : stratum.iterative = other.iterative

/-- Two stratifications have strata that agree one by one, the same places of relations, and
negation alike. -/
structure Stratification.Agrees (stratification other : Stratification) : Prop where
  strata : List.Forall₂ Stratum.Agrees stratification.strata other.strata
  place? : ∀ relation, stratification.place? relation = other.place? relation
  hasNegation : stratification.hasNegation = other.hasNegation

/-- Two negation cycles name the same relations in the same order, and the same edges. -/
structure NegationCycle.Agrees (cycle other : NegationCycle) : Prop where
  relations : cycle.relations = other.relations
  mem_edges_iff : ∀ edge, edge ∈ cycle.edges ↔ edge ∈ other.edges

/-- Two rejections report cycles that agree, and so do all others that they know of. -/
structure Rejection.Agrees (rejection other : Rejection) : Prop where
  cycle : rejection.cycle.Agrees other.cycle
  others : List.Forall₂ NegationCycle.Agrees rejection.others other.others

/-- Two outcomes are both a stratification or both a rejection, and these agree. -/
def OutcomesAgree : Except Rejection Stratification → Except Rejection Stratification → Prop
  | .ok stratification, .ok other => stratification.Agrees other
  | .error rejection, .error other => rejection.Agrees other
  | _, _ => False

namespace Precedence

variable {precedence other : Precedence}

section

variable (wellFormed : precedence.graph.WellFormed) (otherFormed : other.graph.WellFormed)
  (agrees : precedence.graph.Agrees other.graph)
include wellFormed otherFormed agrees

theorem stratification_agrees {stratification otherStratification : Stratification}
    (accepted : precedence.stratify = .ok stratification)
    (otherAccepted : other.stratify = .ok otherStratification) :
    stratification.Agrees otherStratification := by
  have edges := agrees.hasEdge_eq wellFormed otherFormed
  have represents := (Decomposition.represents_ofGraph wellFormed).of_agrees agrees wellFormed
    otherFormed
  have relations : stratification.strata.map Stratum.relations =
      otherStratification.strata.map Stratum.relations := by
    rw [relations_of_eq_ok wellFormed accepted, relations_of_eq_ok otherFormed otherAccepted]
    exact represents.layering_eq (Decomposition.represents_ofGraph otherFormed)
  have places (relation : RelationId) :
      stratification.place? relation = otherStratification.place? relation := by
    rw [place?_eq, place?_eq, relations]
  refine ⟨?_, places, ?_⟩
  · refine forall₂_of_map_eq relations fun place stratum same found foundSame equal => ?_
    refine ⟨equal, ?_, ?_, ?_⟩
    · rw [Bool.eq_iff_iff, recursive_iff wellFormed accepted found,
        recursive_iff otherFormed otherAccepted foundSame, equal, edges]
    · apply (enter_ascending wellFormed accepted found).eq_of_mem_iff
        (enter_ascending otherFormed otherAccepted foundSame)
      intro u
      rw [mem_enter_iff wellFormed accepted found,
        mem_enter_iff otherFormed otherAccepted foundSame, equal, edges, places]
    · apply (iterative_ascending wellFormed accepted found).eq_of_mem_iff
        (iterative_ascending otherFormed otherAccepted foundSame)
      intro u
      rw [mem_iterative_iff wellFormed accepted found,
        mem_iterative_iff otherFormed otherAccepted foundSame, equal, edges, places]
  · rw [Bool.eq_iff_iff, hasNegation_iff wellFormed accepted,
      hasNegation_iff otherFormed otherAccepted]
    simp only [agrees.mem_edges_iff wellFormed otherFormed]

theorem negationCycles_agree
    (declared : precedence.program.declarations = other.program.declarations) :
    List.Forall₂ NegationCycle.Agrees
      (precedence.negationCycles (Decomposition.ofGraph precedence.graph))
      (other.negationCycles (Decomposition.ofGraph other.graph)) := by
  have names : precedence.nameOf = other.nameOf := by
    funext relation
    simp only [nameOf, name?, Program.declaration?, declared]
  have represents := (Decomposition.represents_ofGraph wellFormed).of_agrees agrees wellFormed
    otherFormed
  have components :=
    represents.unsafeComponents_agree (Decomposition.represents_ofGraph otherFormed)
  rw [negationCycles, negationCycles, List.forall₂_map_left_iff, List.forall₂_map_right_iff]
  refine components.imp fun component same agrees => ⟨?_, fun edge => ?_⟩
  · simp only [cycleOf, agrees.members, names]
  · simp only [cycleOf, List.mem_map, agrees.mem_negativeEdges_iff, names]

end

/-- Graphs that agree have outcomes that agree. -/
theorem stratify_agrees (wellFormed : precedence.graph.WellFormed)
    (otherFormed : other.graph.WellFormed) (agrees : precedence.graph.Agrees other.graph)
    (declared : precedence.program.declarations = other.program.declarations) :
    OutcomesAgree precedence.stratify other.stratify := by
  have cycles := negationCycles_agree wellFormed otherFormed agrees declared
  cases found : precedence.negationCycles (Decomposition.ofGraph precedence.graph) with
  | nil =>
    rw [found, List.forall₂_nil_left_iff] at cycles
    have accepted : precedence.stratify = .ok ⟨precedence, Decomposition.ofGraph precedence.graph,
        precedence.layers (Decomposition.ofGraph precedence.graph)⟩ := by
      simp only [stratify, found]
    have otherAccepted : other.stratify = .ok ⟨other, Decomposition.ofGraph other.graph,
        other.layers (Decomposition.ofGraph other.graph)⟩ := by
      simp only [stratify, cycles]
    rw [accepted, otherAccepted]
    exact stratification_agrees wellFormed otherFormed agrees accepted otherAccepted
  | cons cycle others =>
    rw [found, List.forall₂_cons_left_iff] at cycles
    obtain ⟨same, otherCycles, first, rest, otherFound⟩ := cycles
    have rejected : precedence.stratify = .error ⟨cycle, others⟩ := by
      simp only [stratify, found]
    have otherRejected : other.stratify = .error ⟨same, otherCycles⟩ := by
      simp only [stratify, otherFound]
    rw [rejected, otherRejected]
    exact ⟨first, rest⟩

end Precedence

end DatalogStrata
