import DatalogStrata.CommandLine.Analysis
import DatalogStrata.Proofs.Clause.Preorder
import DatalogStrata.Proofs.Dependency

/-!
# What the precedence graph is built from

Every occurrence in a clause of a declared relation is used once. If its name means a relation, it
is an edge of the precedence graph; if not, it leaves the graph as it is and leaves a note instead.
So the graph has nothing but the declared relations and what resolved occurrences make, and the
notes are those of the other occurrences in the order in which the clauses are walked through.

## Main definitions

* `Resolver.notes` — the notes about the occurrences of a clause

## Main results

* `Precedence.unresolved_build` — the notes, relation by relation and clause by clause
* `Precedence.built_from_occurrences` — edges, signs, vertices and notes of a precedence graph
-/

namespace DatalogStrata

namespace Clause

/-- The occurrences of a clause are those of its body and those in the arguments of its head. -/
theorem mem_occurrences_iff {clause : Clause} {o : Occurrence} :
    o ∈ clause.occurrences ↔ clause.BodyContains o ∨ clause.HeadContains o := by
  -- The walk over the head begins with nothing found, so all it finds is nested in the head.
  have nested : o ∈ clause.head.arguments.flatMap Term.occurrences ↔ clause.HeadContains o := by
    have walked := Atom.mem_collectNested_iff (o := o) #[] clause.head
    rw [← Array.mem_toList_iff, Atom.toList_collectNested, Atom.nestedOccurrences_eq] at walked
    exact walked.trans (or_iff_right (Array.not_mem_empty o))
  rw [occurrences, List.mem_append, ← bodyOccurrences_eq, mem_bodyOccurrences_iff, nested]

/-- The names that a clause mentions are those of its occurrences. -/
theorem names_mentions (clause : Clause) :
    clause.mentions.map Prod.fst = clause.occurrences.map fun o => o.atom.name := by
  rw [mentions, bodyOccurrences_eq, headAtoms_eq, occurrences, List.map_append, List.map_append,
    List.map_map, List.map_map, List.map_map]
  rfl

end Clause

namespace Resolver

variable (resolver : Resolver) (clause : Clause)

/-- The notes about a clause: one for each occurrence whose name means no relation. -/
def notes : List Unresolved :=
  (clause.occurrences.filter fun o => (resolver.relation? o.atom.name).isNone).map
    fun o => ⟨o.atom.name, clause⟩

/-- The note about a name in a clause, if it means no relation. -/
def noteAbout (name : Name) : List Unresolved :=
  match resolver.relation? name with
  | some _ => []
  | none => [⟨name, clause⟩]

theorem flatMap_noteAbout :
    clause.mentions.flatMap (fun mention => resolver.noteAbout clause mention.1) =
      resolver.notes clause := by
  rw [← List.flatMap_map Prod.fst (resolver.noteAbout clause), clause.names_mentions, notes]
  induction clause.occurrences with
  | nil => rfl
  | cons o rest ih =>
    rw [List.map_cons, List.flatMap_cons, ih, noteAbout, List.filter_cons]
    cases resolver.relation? o.atom.name <;> rfl

end Resolver

namespace Precedence

variable (program : Program) (resolver : Resolver)

/-- Steps that each leave notes leave them one after the other. -/
theorem unresolved_foldl {S : Type} (step : Precedence → S → Precedence)
    (notes : S → List Unresolved)
    (one : ∀ precedence s, (step precedence s).unresolved = precedence.unresolved ++ notes s)
    (steps : List S) : ∀ precedence : Precedence,
      (steps.foldl step precedence).unresolved =
        precedence.unresolved ++ steps.flatMap notes := by
  induction steps with
  | nil => exact fun precedence => (List.append_nil _).symm
  | cons first rest ih =>
    intro precedence
    rw [List.foldl_cons, ih, one, List.flatMap_cons, List.append_assoc]

theorem unresolved_addMention (relation : RelationId) (clause : Clause) (precedence : Precedence)
    (mention : Name × Polarity) :
    (addMention resolver relation clause precedence mention).unresolved =
      precedence.unresolved ++ resolver.noteAbout clause mention.1 := by
  unfold addMention Resolver.noteAbout
  cases resolver.relation? mention.1 with
  | some dependency => exact (List.append_nil _).symm
  | none => rfl

theorem unresolved_addClause (relation : RelationId) (precedence : Precedence) (clause : Clause) :
    (addClause resolver relation precedence clause).unresolved =
      precedence.unresolved ++ resolver.notes clause := by
  rw [addClause, unresolved_foldl _ _ (unresolved_addMention resolver relation clause),
    resolver.flatMap_noteAbout]

theorem unresolved_addRelation (precedence : Precedence) (relation : RelationId) :
    (addRelation resolver precedence relation).unresolved =
      precedence.unresolved ++ (resolver.clauses relation).flatMap resolver.notes :=
  unresolved_foldl _ _ (unresolved_addClause resolver relation) _ _

/-- The notes are those of the clauses of each relation, in declaration order. -/
theorem unresolved_build : (build program resolver).unresolved =
    program.relationIds.flatMap fun relation =>
      (resolver.clauses relation).flatMap resolver.notes :=
  unresolved_foldl _ _ (unresolved_addRelation resolver) _ _

/-- What is told while a precedence graph is built: the occurrences whose names mean no relation,
and then how large the graph is. -/
theorem records_build : (build program resolver).records =
    (program.relationIds.flatMap fun relation => (resolver.clauses relation).flatMap fun clause =>
      (clause.occurrences.filter fun o => (resolver.relation? o.atom.name).isNone).map
        fun o => ⟨.debug, .precedence, "Skipping unresolved atom '" ++ o.atom.name.text ++ "' in `" ++
          clause.text ++ "`"⟩) ++
    [⟨.debug, .precedence, "Precedence graph built (vertices=" ++
      toString (build program resolver).graph.vertexCount ++ ", edges=" ++
      toString (build program resolver).graph.edgeCount ++ ")"⟩] := by
  rw [records, unresolved_build]
  simp only [Resolver.notes, List.map_flatMap, List.map_map]
  rfl

/-- The precedence graph has nothing but what resolved occurrences make, whatever the resolver is.
An edge leads to a declared relation from each relation that an occurrence in one of its clauses
means, in the body or in an argument of the head, and it is negative if one of the occurrences in
the body is negated. The vertices are the declared relations and those that are meant; with the
resolver of the program there are no others. Every other occurrence leaves one note, in the order
in which relations, clauses and their occurrences are walked through. -/
theorem built_from_occurrences :
    let precedence := build program resolver
    let graph := precedence.graph
    (∀ u r, graph.HasEdge u r ↔ r ∈ program.relationIds ∧ ∃ clause ∈ resolver.clauses r, ∃ o,
      (clause.BodyContains o ∨ clause.HeadContains o) ∧
        resolver.relation? o.atom.name = some u) ∧
    (∀ u r, (⟨u, r, .negative⟩ : Edge RelationId) ∈ graph.edges ↔
      r ∈ program.relationIds ∧ ∃ clause ∈ resolver.clauses r, ∃ o, clause.BodyContains o ∧
        o.negated = true ∧ resolver.relation? o.atom.name = some u) ∧
    (∀ u r, (⟨u, r, .positive⟩ : Edge RelationId) ∈ graph.edges ↔
      graph.HasEdge u r ∧ (⟨u, r, .negative⟩ : Edge RelationId) ∉ graph.edges) ∧
    (∀ v, v ∈ graph.vertices ↔ v ∈ program.relationIds ∨
      ∃ r ∈ program.relationIds, ∃ clause ∈ resolver.clauses r, ∃ o,
        (clause.BodyContains o ∨ clause.HeadContains o) ∧
          resolver.relation? o.atom.name = some v) ∧
    (∀ v, v ∈ (build program program.resolver).graph.vertices ↔ v ∈ program.relationIds) ∧
    (∀ clause : Clause, ∀ o, o ∈ clause.occurrences ↔
      clause.BodyContains o ∨ clause.HeadContains o) ∧
    precedence.records =
      (program.relationIds.flatMap fun r => (resolver.clauses r).flatMap fun clause =>
        (clause.occurrences.filter fun o => (resolver.relation? o.atom.name).isNone).map
          fun o => ⟨.debug, .precedence, "Skipping unresolved atom '" ++ o.atom.name.text ++
            "' in `" ++ clause.text ++ "`"⟩) ++
      [⟨.debug, .precedence, "Precedence graph built (vertices=" ++
        toString graph.vertexCount ++ ", edges=" ++ toString graph.edgeCount ++ ")"⟩] := by
  intro precedence graph
  exact ⟨fun _ _ => hasEdge_build, fun _ _ => negative_build,
    fun _ _ => (wellFormed_build program resolver).positive_iff, fun _ => mem_vertices_build,
    fun _ => mem_vertices_precedence, fun _ _ => Clause.mem_occurrences_iff,
    records_build program resolver⟩

end Precedence

end DatalogStrata
