import DatalogStrata.Proofs.Stratum.Strata

/-!
# What the strata of an accepted program say

Each stratum stands for one component, and all that it tells besides its number can be read off the
precedence graph: whether it is recursive, which relations of earlier strata it enters with, and
which of its own relations it iterates over. Both lists of relations are in declaration order
without repetitions, so they are known by their members.

## Main definitions

* `Stratification.NegatesEarlier` — some stratum negates a relation of an earlier one

## Main results

* `mem_distinct`, `distinct_ascending` — relations sorted without repetitions
* `Precedence.stratum_of_eq_ok` — a stratum is a component with what it reads
* `Precedence.recursive_iff`, `Precedence.mem_enter_iff`, `Precedence.mem_iterative_iff` — what a
  stratum tells, by the edges of the graph
* `Precedence.hasNegation_iff` — some stratum negates another one when some edge is negative
* `Precedence.negatesEarlier_iff` — and then one negates an earlier one
* `negation_reported_iff` — negation between strata is negation in the bodies of clauses
-/

namespace DatalogStrata

/-! ## Lists without repetitions -/

section Repetitions

variable {α : Type} [DecidableEq α] {item other : α} {items : List α}

theorem eraseRepsBy_loop_cons (done : List α) :
    List.eraseRepsBy.loop (· == ·) item (other :: items) done =
      if item = other then List.eraseRepsBy.loop (· == ·) item items done
      else List.eraseRepsBy.loop (· == ·) other items (item :: done) := by
  by_cases same : item = other
  · subst same
    simp [List.eraseRepsBy.loop]
  · simp [List.eraseRepsBy.loop, same, beq_eq_false_iff_ne.mpr same]

/-- What is kept already stands in front of what is still to be kept. -/
theorem eraseRepsBy_loop (items : List α) : ∀ (item : α) (done : List α),
    List.eraseRepsBy.loop (· == ·) item items done =
      done.reverse ++ List.eraseRepsBy.loop (· == ·) item items [] := by
  induction items with
  | nil =>
    intro item done
    simp [List.eraseRepsBy.loop]
  | cons next rest ih =>
    intro item done
    rw [eraseRepsBy_loop_cons, eraseRepsBy_loop_cons]
    split
    · exact ih item done
    · rw [ih next (item :: done), ih next [item]]
      simp

/-- Of two equal neighbours one is kept. -/
theorem eraseReps_cons_cons : List.eraseReps (item :: other :: items) =
    if item = other then List.eraseReps (other :: items)
    else item :: List.eraseReps (other :: items) := by
  change List.eraseRepsBy.loop (· == ·) item (other :: items) [] = _
  rw [eraseRepsBy_loop_cons]
  split
  · rename_i same
    subst same
    rfl
  · exact eraseRepsBy_loop items other [item]

theorem mem_eraseReps : ∀ {items : List α}, item ∈ items.eraseReps ↔ item ∈ items
  | [] => Iff.rfl
  | [_] => Iff.rfl
  | first :: second :: rest => by
    rw [eraseReps_cons_cons]
    split
    · rename_i same
      rw [mem_eraseReps, same]
      simp
    · rw [List.mem_cons, mem_eraseReps, ← List.mem_cons]

end Repetitions

/-- Among relations in weakly ascending order repetitions are neighbours. -/
theorem eraseReps_ascending : ∀ {relations : List RelationId},
    relations.Pairwise (· ≤ ·) → Ascending relations.eraseReps
  | [], _ => List.Pairwise.nil
  | [_], _ => List.pairwise_singleton _ _
  | first :: second :: rest, sorted => by
    obtain ⟨least, sortedRest⟩ := List.pairwise_cons.mp sorted
    rw [eraseReps_cons_cons]
    split
    · exact eraseReps_ascending sortedRest
    · rename_i different
      refine List.pairwise_cons.mpr ⟨?_, eraseReps_ascending sortedRest⟩
      intro later member
      have less : first < second := RelationId.lt_of_le_of_ne (least _ List.mem_cons_self) different
      rcases List.mem_cons.mp (mem_eraseReps.mp member) with same | inRest
      · exact same ▸ less
      · exact Nat.lt_of_lt_of_le less ((List.pairwise_cons.mp sortedRest).1 later inRest)

theorem mem_distinct {relations : List RelationId} {relation : RelationId} :
    relation ∈ distinct relations ↔ relation ∈ relations := by
  rw [distinct, mem_eraseReps, RelationId.mem_sort]

theorem distinct_ascending (relations : List RelationId) : Ascending (distinct relations) :=
  eraseReps_ascending (RelationId.sort_sorted relations)

/-! ## Negation between strata -/

/-- Some stratum negates a relation of an earlier one. -/
def Stratification.NegatesEarlier (stratification : Stratification) : Prop :=
  ∃ u v earlier later, stratification.place? u = some earlier ∧
    stratification.place? v = some later ∧ earlier < later ∧
      (⟨u, v, .negative⟩ : Edge RelationId) ∈ stratification.precedence.graph.edges

/-! ## A stratum is a component -/

namespace Precedence

variable {precedence : Precedence} {stratification : Stratification} {stratum : Stratum}
  {place : Nat} {u : RelationId}

theorem stratumPlace?_mapIdx (graph : Graph RelationId) (placeOf? : RelationId → Option Nat)
    (strata : List Stratum) : stratumPlace? (strata.mapIdx (Stratum.withReads graph placeOf?)) =
      stratumPlace? strata := by
  funext relation
  rw [stratumPlace?_eq, relations_mapIdx_withReads, ← stratumPlace?_eq]

section Accepted

variable (wellFormed : precedence.graph.WellFormed)
  (accepted : precedence.stratify = .ok stratification)
include wellFormed accepted

/-- The stratum at a place is a component of the graph, with what it reads at that place. -/
theorem stratum_of_eq_ok (found : stratification.strata[place]? = some stratum) :
    ∃ id component, (Decomposition.ofGraph precedence.graph).component? id = some component ∧
      stratum = Stratum.withReads precedence.graph stratification.place? place
        (Stratum.ofComponent id component) := by
  have places : stratification.place? = stratumPlace? stratification.strata := rfl
  obtain ⟨-, rfl⟩ := (eq_ok_iff wellFormed).mp accepted
  rw [places]
  simp only [layers, stratumPlace?_mapIdx, List.getElem?_mapIdx, Option.map_eq_some_iff] at found ⊢
  obtain ⟨plain, atPlace, rfl⟩ := found
  obtain ⟨id, -, named⟩ := List.mem_filterMap.mp (List.mem_of_getElem? atPlace)
  obtain ⟨component, isComponent, rfl⟩ := Option.map_eq_some_iff.mp named
  exact ⟨id, component, isComponent, rfl⟩

/-- A stratum is recursive when it has several relations or one that depends on itself. -/
theorem recursive_iff (found : stratification.strata[place]? = some stratum) :
    stratum.recursive = true ↔
      1 < stratum.relations.length ∨ ∃ v ∈ stratum.relations, precedence.graph.HasEdge v v := by
  obtain ⟨id, component, isComponent, rfl⟩ := stratum_of_eq_ok wellFormed accepted found
  simpa [Stratum.withReads, Stratum.ofComponent] using
    (Decomposition.represents_ofGraph wellFormed).recursive_iff isComponent

/-- A stratum enters with what it reads of earlier strata. -/
theorem mem_enter_iff (found : stratification.strata[place]? = some stratum) :
    u ∈ stratum.enter ↔ (∃ v ∈ stratum.relations, precedence.graph.HasEdge u v) ∧
      ∃ earlier, stratification.place? u = some earlier ∧ earlier < place := by
  obtain ⟨id, component, -, rfl⟩ := stratum_of_eq_ok wellFormed accepted found
  simp [Stratum.withReads, mem_distinct, wellFormed.mem_predecessors_iff, Option.any_eq_true]

/-- A stratum iterates over what it reads of its own relations. -/
theorem mem_iterative_iff (found : stratification.strata[place]? = some stratum) :
    u ∈ stratum.iterative ↔ (∃ v ∈ stratum.relations, precedence.graph.HasEdge u v) ∧
      stratification.place? u = some place := by
  obtain ⟨id, component, -, rfl⟩ := stratum_of_eq_ok wellFormed accepted found
  simp [Stratum.withReads, mem_distinct, wellFormed.mem_predecessors_iff]

theorem enter_ascending (found : stratification.strata[place]? = some stratum) :
    Ascending stratum.enter := by
  obtain ⟨id, component, -, rfl⟩ := stratum_of_eq_ok wellFormed accepted found
  exact distinct_ascending _

theorem iterative_ascending (found : stratification.strata[place]? = some stratum) :
    Ascending stratum.iterative := by
  obtain ⟨id, component, -, rfl⟩ := stratum_of_eq_ok wellFormed accepted found
  exact distinct_ascending _

/-- Some stratum negates another one exactly when some edge is negative: in an accepted program no
negative edge stays inside a component. -/
theorem hasNegation_iff : stratification.hasNegation = true ↔
    ∃ u v, (⟨u, v, .negative⟩ : Edge RelationId) ∈ precedence.graph.edges := by
  obtain ⟨safe, rfl⟩ := (eq_ok_iff wellFormed).mp accepted
  have represents := Decomposition.represents_ofGraph wellFormed
  rw [Stratification.hasNegation, List.any_eq_true]
  constructor
  · intro negated
    obtain ⟨⟨i, j, sign⟩, listed, negative⟩ := negated
    cases sign with
    | positive => simp [Polarity.isNegative] at negative
    | negative =>
      obtain ⟨-, u, v, edge, -, -⟩ := Decomposition.condensation_negative_ofGraph.mp listed
      exact ⟨u, v, edge⟩
  · intro negated
    obtain ⟨u, v, edge⟩ := negated
    have leads : precedence.graph.HasEdge u v := ⟨.negative, edge⟩
    obtain ⟨vertexU, vertexV⟩ := Graph.mem_vertices_of_hasEdge leads
    obtain ⟨i, ownedU⟩ := represents.owner?_isSome_iff.mpr vertexU
    obtain ⟨j, ownedV⟩ := represents.owner?_isSome_iff.mpr vertexV
    refine ⟨⟨i, j, .negative⟩, ?_, rfl⟩
    refine Decomposition.condensation_negative_ofGraph.mpr ⟨?_, u, v, edge, ownedU, ownedV⟩
    intro same
    exact safe ⟨u, v, edge, ((represents.owner_eq_iff ownedU ownedV).mp same).2⟩

/-- Every negative edge leads from a stratum to a later one, whichever edge it is. -/
theorem negatesEarlier_iff : stratification.NegatesEarlier ↔
    ∃ u v, (⟨u, v, .negative⟩ : Edge RelationId) ∈ precedence.graph.edges := by
  have safe := ((eq_ok_iff wellFormed).mp accepted).1
  have same : stratification.precedence = precedence := by
    rw [((eq_ok_iff wellFormed).mp accepted).2]
  have layering := isLayering_of_eq_ok wellFormed accepted
  rw [Stratification.NegatesEarlier, same]
  constructor
  · intro negates
    obtain ⟨u, v, -, -, -, -, -, edge⟩ := negates
    exact ⟨u, v, edge⟩
  · intro negates
    obtain ⟨u, v, edge⟩ := negates
    obtain ⟨vertexU, vertexV⟩ := Graph.mem_vertices_of_hasEdge ⟨.negative, edge⟩
    obtain ⟨i, atU⟩ := layering.exists_place vertexU
    obtain ⟨j, atV⟩ := layering.exists_place vertexV
    -- Were both in one stratum, the edge would lie on a cycle and the program be rejected.
    have before : i < j := layering.place_lt safe edge atU atV
    refine ⟨u, v, i, j, ?_, ?_, before, edge⟩
    · rw [place?_eq, atU]
    · rw [place?_eq, atV]

end Accepted

end Precedence

/-- Of an accepted program it is reported that it has negation between strata exactly when some
clause of a declared relation has a negated atom at whatever depth of its body that resolves. Then
a stratum does negate a relation of an earlier one. -/
theorem negation_reported_iff (program : Program) (resolver : Resolver)
    {stratification : Stratification}
    (accepted : (Precedence.build program resolver).stratify = .ok stratification) :
    (stratification.hasNegation = true ↔
      ∃ r ∈ program.relationIds, ∃ clause ∈ resolver.clauses r, ∃ o u,
        clause.BodyContains o ∧ o.negated = true ∧ resolver.relation? o.atom.name = some u) ∧
    (stratification.hasNegation = true ↔ stratification.NegatesEarlier) := by
  have wellFormed := Precedence.wellFormed_build program resolver
  have reported := Precedence.hasNegation_iff wellFormed accepted
  refine ⟨?_, reported.trans (Precedence.negatesEarlier_iff wellFormed accepted).symm⟩
  rw [reported]
  constructor
  · intro negative
    obtain ⟨u, r, edge⟩ := negative
    obtain ⟨declared, clause, defines, o, inBody, negated, resolved⟩ :=
      Precedence.negative_build.mp edge
    exact ⟨r, declared, clause, defines, o, u, inBody, negated, resolved⟩
  · intro occurs
    obtain ⟨r, declared, clause, defines, o, u, inBody, negated, resolved⟩ := occurs
    refine ⟨u, r, Precedence.negative_build.mpr ⟨declared, ?_⟩⟩
    exact ⟨clause, defines, o, inBody, negated, resolved⟩

/-- What is counted stands under a negation inside an aggregate, and that is reported. -/
theorem ReadAndCounted.negation_reported :
    ∃ s, (Precedence.build program program.resolver).stratify = .ok s ∧
      s.hasNegation = true := by
  obtain ⟨s, accepted⟩ := accepted
  have negated : clause.BodyContains ⟨⟨⟨["base"]⟩, []⟩, true⟩ :=
    ⟨_, List.mem_cons_self, .right (.body List.mem_cons_self .negation)⟩
  refine ⟨s, accepted, ?_⟩
  apply (negation_reported_iff program program.resolver accepted).1.mpr
  exact ⟨⟨1⟩, by decide, clause, List.mem_cons_self, _, ⟨0⟩, negated, rfl, rfl⟩

end DatalogStrata
