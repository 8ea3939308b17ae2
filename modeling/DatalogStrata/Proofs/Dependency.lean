import DatalogStrata.Precedence
import DatalogStrata.Proofs.Clause.Occurrence
import DatalogStrata.Proofs.Graph.Listing
import DatalogStrata.Proofs.Program.Index

/-!
# Dependencies between relations

The precedence graph is the graph of a log: each declared relation is inserted, and then an edge
for each resolved occurrence in its clauses. So an edge leads to a relation from exactly what it
depends on, and it is negative exactly when the relation negates it somewhere, however often and
in whatever order both occur.

## Main definitions

* `Atom.propositional` — the atoms of small programs
* `Resolver.DependsOn`, `Resolver.Negates` — what a relation depends on, and what it negates
* `Precedence.insertions` — the log of the precedence graph

## Main results

* `Precedence.graph_build` — the precedence graph is the graph of its log
* `Precedence.hasEdge_build`, `Precedence.negative_build` — its edges and their signs
* `Precedence.mem_vertices_build`, `Precedence.mem_vertices_precedence` — its vertices
-/

namespace DatalogStrata

/-- The atom of a relation without columns. -/
def Atom.propositional (name : String) : Atom :=
  ⟨⟨[name]⟩, []⟩

namespace Clause

variable {clause : Clause} {name : Name} {sign : Polarity}

/-- A clause mentions what occurs in its body with the sign of the occurrence, and what occurs in
the arguments of its head positively. -/
theorem mem_mentions_iff : (name, sign) ∈ clause.mentions ↔
    (∃ o, clause.BodyContains o ∧ o.atom.name = name ∧ Polarity.ofNegated o.negated = sign) ∨
      ∃ o, clause.HeadContains o ∧ o.atom.name = name ∧ Polarity.positive = sign := by
  simp only [mentions, List.mem_append, List.mem_map, Prod.mk.injEq, mem_bodyOccurrences_iff,
    mem_headAtoms_iff]
  constructor
  · rintro (body | ⟨_, ⟨o, inside, rfl⟩, named, positive⟩)
    · exact Or.inl body
    · exact Or.inr ⟨o, inside, named, positive⟩
  · rintro (body | ⟨o, inside, named, positive⟩)
    · exact Or.inl body
    · exact Or.inr ⟨o.atom, ⟨o, inside, rfl⟩, named, positive⟩

end Clause

namespace Resolver

/-- Some clause of a relation has an occurrence, in its body or in an argument of its head, that
means another relation. -/
def DependsOn (resolver : Resolver) (relation dependency : RelationId) : Prop :=
  ∃ clause ∈ resolver.clauses relation, ∃ o, (clause.BodyContains o ∨ clause.HeadContains o) ∧
    resolver.relation? o.atom.name = some dependency

/-- Some clause of a relation has a negated occurrence in its body that means another relation. -/
def Negates (resolver : Resolver) (relation dependency : RelationId) : Prop :=
  ∃ clause ∈ resolver.clauses relation, ∃ o, clause.BodyContains o ∧ o.negated = true ∧
    resolver.relation? o.atom.name = some dependency

end Resolver

namespace Precedence

variable {program : Program} {resolver : Resolver} {u v : RelationId}

/-- What a mention in a clause of a relation inserts; nothing when the name is not known. -/
def mentionInsertions (resolver : Resolver) (relation : RelationId) (mention : Name × Polarity) :
    List (Insertion RelationId) :=
  match resolver.relation? mention.1 with
  | some dependency => [.edge ⟨dependency, relation, mention.2⟩]
  | none => []

/-- What a relation inserts: itself, and then what the mentions in its clauses do. -/
def relationInsertions (resolver : Resolver) (relation : RelationId) :
    List (Insertion RelationId) :=
  .vertex relation :: (resolver.clauses relation).flatMap fun clause =>
    clause.mentions.flatMap (mentionInsertions resolver relation)

/-- The log of the precedence graph. -/
def insertions (program : Program) (resolver : Resolver) : List (Insertion RelationId) :=
  program.relationIds.flatMap (relationInsertions resolver)

/-- Steps that each insert a log insert the logs one after the other. -/
theorem graph_foldl {S : Type} (step : Precedence → S → Precedence)
    (log : S → List (Insertion RelationId))
    (one : ∀ precedence s, (step precedence s).graph =
      (log s).foldl Graph.insert precedence.graph) (steps : List S) :
    ∀ precedence : Precedence, (steps.foldl step precedence).graph =
      (steps.flatMap log).foldl Graph.insert precedence.graph := by
  induction steps with
  | nil => exact fun _ => rfl
  | cons first rest ih =>
    intro precedence
    rw [List.foldl_cons, ih, one, List.flatMap_cons, List.foldl_append]

theorem graph_addMention (resolver : Resolver) (relation : RelationId) (clause : Clause)
    (precedence : Precedence) (mention : Name × Polarity) :
    (addMention resolver relation clause precedence mention).graph =
      (mentionInsertions resolver relation mention).foldl Graph.insert precedence.graph := by
  unfold addMention mentionInsertions
  cases resolver.relation? mention.1 with
  | some dependency => rfl
  | none => rfl

theorem graph_addClause (resolver : Resolver) (relation : RelationId) (precedence : Precedence)
    (clause : Clause) : (addClause resolver relation precedence clause).graph =
      (clause.mentions.flatMap (mentionInsertions resolver relation)).foldl Graph.insert
        precedence.graph :=
  graph_foldl _ _ (graph_addMention resolver relation clause) _ precedence

theorem graph_addRelation (resolver : Resolver) (precedence : Precedence)
    (relation : RelationId) : (addRelation resolver precedence relation).graph =
      (relationInsertions resolver relation).foldl Graph.insert precedence.graph :=
  graph_foldl _ _ (graph_addClause resolver relation) _ _

/-- The precedence graph is the graph of its log. -/
theorem graph_build (program : Program) (resolver : Resolver) :
    (build program resolver).graph = Graph.ofInsertions (insertions program resolver) :=
  graph_foldl _ _ (graph_addRelation resolver) _ _

/-- Steps that each keep the program keep it together. -/
theorem program_foldl {S : Type} (step : Precedence → S → Precedence)
    (keeps : ∀ precedence s, (step precedence s).program = precedence.program) (steps : List S) :
    ∀ precedence : Precedence, (steps.foldl step precedence).program = precedence.program := by
  induction steps with
  | nil => exact fun _ => rfl
  | cons first rest ih =>
    intro precedence
    rw [List.foldl_cons, ih, keeps]

/-- A precedence graph is that of its program. -/
theorem program_build (program : Program) (resolver : Resolver) :
    (build program resolver).program = program := by
  refine program_foldl _ (fun precedence relation => ?_) _ _
  refine (program_foldl _ (fun precedence clause => ?_) _ _).trans rfl
  refine program_foldl _ (fun precedence mention => ?_) _ _
  unfold addMention
  split <;> rfl

theorem wellFormed_build (program : Program) (resolver : Resolver) :
    (build program resolver).graph.WellFormed :=
  graph_build program resolver ▸ Graph.wellFormed_ofInsertions _

theorem mem_mentionInsertions_iff {mention : Name × Polarity} {insertion : Insertion RelationId} :
    insertion ∈ mentionInsertions resolver v mention ↔
      ∃ dependency, resolver.relation? mention.1 = some dependency ∧
        insertion = .edge ⟨dependency, v, mention.2⟩ := by
  unfold mentionInsertions
  cases resolver.relation? mention.1 with
  | some dependency => simp
  | none => simp

/-- The log inserts an edge for each resolved mention in a clause of a declared relation. -/
theorem edge_mem_insertions_iff {sign : Polarity} :
    .edge ⟨u, v, sign⟩ ∈ insertions program resolver ↔ v ∈ program.relationIds ∧
      ∃ clause ∈ resolver.clauses v, ∃ name, (name, sign) ∈ clause.mentions ∧
        resolver.relation? name = some u := by
  simp only [insertions, relationInsertions, List.mem_flatMap, List.mem_cons, reduceCtorEq,
    false_or, mem_mentionInsertions_iff, Insertion.edge.injEq, Edge.mk.injEq, Prod.exists]
  constructor
  · rintro ⟨_, declared, clause, defines, name, _, mentioned, _, resolved, rfl, rfl, rfl⟩
    exact ⟨declared, clause, defines, name, mentioned, resolved⟩
  · rintro ⟨declared, clause, defines, name, mentioned, resolved⟩
    exact ⟨v, declared, clause, defines, name, sign, mentioned, u, resolved, rfl, rfl, rfl⟩

/-- An edge leads to each declared relation from what it depends on. -/
theorem hasEdge_build : (build program resolver).graph.HasEdge u v ↔
    v ∈ program.relationIds ∧ resolver.DependsOn v u := by
  simp only [graph_build, Graph.hasEdge_ofInsertions, edge_mem_insertions_iff,
    Clause.mem_mentions_iff, Resolver.DependsOn]
  constructor
  · rintro ⟨sign, declared, clause, defines, name, occurs, resolved⟩
    refine ⟨declared, clause, defines, ?_⟩
    rcases occurs with ⟨o, inside, rfl, -⟩ | ⟨o, inside, rfl, -⟩
    · exact ⟨o, Or.inl inside, resolved⟩
    · exact ⟨o, Or.inr inside, resolved⟩
  · rintro ⟨declared, clause, defines, o, inside | inside, resolved⟩
    · exact ⟨_, declared, clause, defines, _, Or.inl ⟨o, inside, rfl, rfl⟩, resolved⟩
    · exact ⟨_, declared, clause, defines, _, Or.inr ⟨o, inside, rfl, rfl⟩, resolved⟩

/-- The edge is negative when the relation negates what it depends on. -/
theorem negative_build :
    (⟨u, v, .negative⟩ : Edge RelationId) ∈ (build program resolver).graph.edges ↔
      v ∈ program.relationIds ∧ resolver.Negates v u := by
  have negated {o : Occurrence} :
      Polarity.ofNegated o.negated = .negative ↔ o.negated = true := by
    cases o.negated <;> simp [Polarity.ofNegated]
  simp only [graph_build, Graph.negative_ofInsertions, edge_mem_insertions_iff,
    Clause.mem_mentions_iff, Resolver.Negates, negated, reduceCtorEq, and_false, exists_false,
    or_false]
  refine and_congr_right fun _ => exists_congr fun clause => and_congr_right fun _ => ?_
  constructor
  · rintro ⟨_, ⟨o, inside, rfl, negative⟩, resolved⟩
    exact ⟨o, inside, negative, resolved⟩
  · rintro ⟨o, inside, negative, resolved⟩
    exact ⟨_, ⟨o, inside, rfl, negative⟩, resolved⟩

/-- The vertices are the declared relations and what they depend on. -/
theorem mem_vertices_build : v ∈ (build program resolver).graph.vertices ↔
    v ∈ program.relationIds ∨ ∃ r ∈ program.relationIds, resolver.DependsOn r v := by
  rw [graph_build, Graph.mem_vertices_ofInsertions]
  constructor
  · rintro ⟨insertion, inserted, mentioned⟩
    -- Only declared relations are inserted by themselves; the rest are ends of edges.
    cases insertion with
    | vertex label =>
      left
      simp only [insertions, relationInsertions, List.mem_flatMap, List.mem_cons,
        mem_mentionInsertions_iff, reduceCtorEq, and_false, exists_false, or_false] at inserted
      obtain ⟨_, declared, same⟩ := inserted
      rw [Insertion.vertex.injEq] at same
      exact (mentioned.trans same) ▸ declared
    | edge edge =>
      have leads : (build program resolver).graph.HasEdge edge.source edge.target := by
        rw [graph_build, Graph.hasEdge_ofInsertions]
        exact ⟨edge.polarity, inserted⟩
      obtain ⟨declared, depends⟩ := hasEdge_build.mp leads
      rcases mentioned with rfl | rfl
      · exact Or.inr ⟨_, declared, depends⟩
      · exact Or.inl declared
  · rintro (declared | ⟨r, declared, depends⟩)
    · exact ⟨.vertex v, List.mem_flatMap.mpr ⟨v, declared, List.mem_cons_self⟩, rfl⟩
    · have leads := hasEdge_build.mpr ⟨declared, depends⟩
      rw [graph_build, Graph.hasEdge_ofInsertions] at leads
      obtain ⟨sign, inserted⟩ := leads
      exact ⟨_, inserted, Or.inl rfl⟩

/-- With the resolver of the program the vertices are just the declared relations. -/
theorem mem_vertices_precedence : v ∈ program.precedence.graph.vertices ↔
    v ∈ program.relationIds := by
  rw [Program.precedence, mem_vertices_build]
  constructor
  · rintro (declared | ⟨r, -, clause, -, o, -, resolved⟩)
    · exact declared
    · exact Program.declared_of_relation? resolved
  · exact Or.inl

end Precedence

end DatalogStrata
