import DatalogStrata.Proofs.Component.Members
import DatalogStrata.Proofs.Graph.FirstInsertion
import DatalogStrata.Proofs.Precedence

/-!
# The neighbours of a relation in order

Nothing is sorted in a precedence graph; its listings follow the source. What a relation depends on
is listed as its clauses mention it for the first time. What depends on a relation is listed in
declaration order, because all clauses of one relation are looked at before those of the next.

Both rest on one fact about the log: a declared relation inserts itself and then an edge for each
of its dependencies, in order. Whatever is read off the log can be read off the dependencies.

## Main definitions

* `Resolver.dependencies` — what the clauses of a relation mention, occurrence by occurrence

## Main results

* `Program.relationIds_ascending` — references in declaration order ascend
* `Precedence.flatMap_relationInsertions` — the log of a relation by its dependencies
* `Precedence.predecessors_build`, `Precedence.successors_build` — the neighbours of a vertex
* `Precedence.neighbours_in_order` — in which order a precedence graph lists them
-/

namespace DatalogStrata

theorem Program.relationIds_ascending (program : Program) : Ascending program.relationIds :=
  List.pairwise_map.mpr List.pairwise_lt_range

namespace Resolver

/-- The relations that the occurrences in the clauses of a relation mean, with repetitions: clause
by clause, and in each clause those of the body before those in the arguments of the head. -/
def dependencies (resolver : Resolver) (relation : RelationId) : List RelationId :=
  (resolver.clauses relation).flatMap fun clause =>
    clause.occurrences.filterMap fun o => resolver.relation? o.atom.name

end Resolver

namespace Precedence

variable {program : Program} {resolver : Resolver} {relation : RelationId}

/-- What is read off the insertions of a mention. -/
theorem flatMap_mentionInsertions {α : Type} {read : Insertion RelationId → List α}
    {own : RelationId → List α}
    (signless : ∀ dependency sign, read (.edge ⟨dependency, relation, sign⟩) = own dependency)
    (mention : Name × Polarity) :
    (mentionInsertions resolver relation mention).flatMap read =
      (resolver.relation? mention.1).toList.flatMap own := by
  unfold mentionInsertions
  cases resolver.relation? mention.1 with
  | none => rfl
  | some dependency => simp [signless]

/-- What is read off the insertions of a relation without regard to signs is what is read off
itself and then off each of its dependencies. -/
theorem flatMap_relationInsertions {α : Type} {read : Insertion RelationId → List α}
    (own : RelationId → List α)
    (signless : ∀ dependency sign, read (.edge ⟨dependency, relation, sign⟩) = own dependency) :
    (relationInsertions resolver relation).flatMap read =
      read (.vertex relation) ++ (resolver.dependencies relation).flatMap own := by
  have ofClause (clause : Clause) :
      (clause.mentions.flatMap (mentionInsertions resolver relation)).flatMap read =
        (clause.occurrences.filterMap fun o => resolver.relation? o.atom.name).flatMap own := by
    calc (clause.mentions.flatMap (mentionInsertions resolver relation)).flatMap read
      _ = clause.mentions.flatMap fun mention =>
            (resolver.relation? mention.1).toList.flatMap own := by
          simp only [List.flatMap_assoc, flatMap_mentionInsertions signless]
      _ = (clause.mentions.map Prod.fst).flatMap fun name =>
            (resolver.relation? name).toList.flatMap own := by
          rw [List.flatMap_map]
      _ = clause.occurrences.flatMap fun o =>
            (resolver.relation? o.atom.name).toList.flatMap own := by
          rw [clause.names_mentions, List.flatMap_map]
      _ = (clause.occurrences.filterMap fun o => resolver.relation? o.atom.name).flatMap own := by
          rw [List.filterMap_eq_flatMap_toList, List.flatMap_assoc]
  simp only [relationInsertions, Resolver.dependencies, List.flatMap_cons, List.flatMap_assoc,
    ← ofClause]

/-- The sources of the edges into a relation, in the order of the log, are its dependencies. -/
theorem sourcesInto_relationInsertions (target : RelationId) :
    (relationInsertions resolver relation).flatMap (Insertion.sourcesInto target) =
      if relation = target then resolver.dependencies relation else [] := by
  rw [flatMap_relationInsertions (fun dependency => if relation = target then [dependency] else [])
    fun _ _ => rfl]
  split
  · exact List.flatMap_singleton' _
  · simp [Insertion.sourcesInto]

/-- The targets of the edges of a relation from a dependency, in the order of the log: the
relation, as often as the dependency is mentioned. -/
theorem targetsFrom_relationInsertions (source : RelationId) :
    (relationInsertions resolver relation).flatMap (Insertion.targetsFrom source) =
      (resolver.dependencies relation).flatMap fun dependency =>
        if dependency = source then [relation] else [] :=
  flatMap_relationInsertions (fun dependency => if dependency = source then [relation] else [])
    fun _ _ => rfl

/-- A declared relation lists its dependencies as they are mentioned for the first time. -/
theorem predecessors_build (declared : relation ∈ program.relationIds) :
    (build program resolver).graph.predecessors relation =
      (resolver.dependencies relation).eraseDups := by
  rw [graph_build, Graph.predecessors_ofInsertions, insertions, List.flatMap_assoc]
  simp only [sourcesInto_relationInsertions]
  rw [flatMap_ite_eq program.relationIds_ascending.nodup declared]

theorem predecessors_build_of_undeclared (undeclared : relation ∉ program.relationIds) :
    (build program resolver).graph.predecessors relation = [] := by
  rw [List.eq_nil_iff_forall_not_mem]
  intro source listed
  exact undeclared (hasEdge_build.mp
    ((wellFormed_build program resolver).mem_predecessors_iff.mp listed)).1

/-- The relations that depend on a vertex are listed as they are declared. -/
theorem successors_build (source : RelationId) :
    (build program resolver).graph.successors source =
      program.relationIds.filter fun relation => source ∈ resolver.dependencies relation := by
  rw [graph_build, Graph.successors_ofInsertions, insertions, List.flatMap_assoc]
  simp only [targetsFrom_relationInsertions]
  -- Each relation is inserted by itself alone, in its turn, however often it mentions the source.
  have own (relation : RelationId) : ∀ target ∈ (resolver.dependencies relation).flatMap
      (fun dependency => if dependency = source then [relation] else []), target = relation := by
    intro target listed
    obtain ⟨dependency, -, kept⟩ := List.mem_flatMap.mp listed
    split at kept
    · exact List.mem_singleton.mp kept
    · exact absurd kept List.not_mem_nil
  rw [eraseDups_flatMap_own own program.relationIds_ascending.nodup]
  refine List.filter_congr fun relation _ => ?_
  rw [decide_eq_decide, List.mem_flatMap]
  constructor
  · rintro ⟨dependency, mentioned, kept⟩
    split at kept
    · rename_i same
      exact same ▸ mentioned
    · exact absurd kept List.not_mem_nil
  · exact fun mentioned => ⟨source, mentioned, by rw [if_pos rfl]; exact List.mem_cons_self⟩

/-- Neighbours are listed in an order that the source determines, whatever the resolver is. What
depends on a vertex are the declared relations with an occurrence that means it, in strictly
ascending order. What a declared relation depends on are the relations that its occurrences mean,
without repetition and in the order in which they occur for the first time: clause by clause, and
in each clause the body before the arguments of the head. Nothing leads to an undeclared vertex. -/
theorem neighbours_in_order (program : Program) (resolver : Resolver) :
    let graph := (build program resolver).graph
    (∀ u, graph.successors u =
      program.relationIds.filter fun r => u ∈ resolver.dependencies r) ∧
    (∀ u, Ascending (graph.successors u)) ∧
    (∀ r ∈ program.relationIds,
      graph.predecessors r = (resolver.dependencies r).eraseDups) ∧
    (∀ r ∉ program.relationIds, graph.predecessors r = []) := by
  refine ⟨successors_build, fun u => ?_, fun _ => predecessors_build,
    fun _ => predecessors_build_of_undeclared⟩
  rw [successors_build]
  exact program.relationIds_ascending.filter _

end Precedence

end DatalogStrata
