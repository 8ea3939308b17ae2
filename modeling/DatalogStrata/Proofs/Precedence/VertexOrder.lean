import DatalogStrata.Proofs.Diagram.Decoding
import DatalogStrata.Proofs.Precedence.Neighbours

/-!
# The order of the vertices of a precedence graph

A relation becomes a vertex when it is mentioned for the first time: when its turn comes, or when a
clause of a relation declared before it mentions it. So the vertices, and with them the lines of
the text and the nodes of the diagram, stand in the order of first mention. That is the order of
declaration just when no mention runs ahead, leaving out a relation that is declared before the one
that it mentions.

## Main definitions

* `Program.mentioned` — every relation and then what its clauses mention, with repetitions
* `MentionedAhead.program` — a program that mentions its third relation before the second

## Main results

* `ascending_eraseDups_iff` — when the first occurrences ascend
* `Precedence.vertices_precedence` — the vertices in the order of first mention
* `Precedence.vertices_in_order_of_mention` — what that means for the listings of the graph
-/

namespace DatalogStrata

/-- First occurrences ascend when whatever is less than an item occurs before it or not at all. -/
theorem ascending_eraseDups_iff {relations : List RelationId} :
    Ascending relations.eraseDups ↔ ∀ before u after, relations = before ++ u :: after →
      ∀ v ∈ relations, v < u → v ∈ before := by
  constructor
  · rintro ascending before u after rfl v member less
    by_contra missing
    have different : v ≠ u := by
      rintro rfl
      exact Nat.lt_irrefl _ less
    have late : v ∉ before ++ [u] := by
      rw [List.mem_append, List.mem_singleton]
      exact fun early => early.elim missing different
    -- So the first occurrence of `v` stands behind that of `u`.
    rw [List.append_cons, List.eraseDups_append, Ascending, List.pairwise_append] at ascending
    rw [List.append_cons, List.mem_append, or_iff_right late] at member
    have greater : u < v := by
      refine ascending.2.2 u ?_ v ?_
      · rw [List.mem_eraseDups]
        exact List.mem_append_right _ List.mem_cons_self
      · rw [List.mem_eraseDups, List.removeAll, List.mem_filter]
        exact ⟨member, by simpa using late⟩
    exact Nat.lt_asymm less greater
  · intro orderly
    -- Whatever stands in front ascends by itself, item by item.
    suffices prefixes : ∀ front rest, relations = front ++ rest → Ascending front.eraseDups from
      prefixes relations [] (List.append_nil _).symm
    intro front
    induction front using List.reverseRecOn with
    | nil => exact fun _ _ => List.Pairwise.nil
    | append_singleton front last ih =>
      intro rest split
      have shorter := ih (last :: rest) (by rw [split, List.append_assoc, List.singleton_append])
      rw [eraseDups_concat]
      split_ifs with old
      · exact shorter
      · rw [Ascending, List.pairwise_append]
        refine ⟨shorter, List.pairwise_singleton _ _, fun u member v own => ?_⟩
        obtain rfl := List.mem_singleton.mp own
        rw [List.mem_eraseDups] at old member
        by_contra notLess
        have less : v < u := by
          refine RelationId.lt_of_le_of_ne (Nat.le_of_not_lt notLess) ?_
          rintro rfl
          exact old member
        obtain ⟨before, after, rfl⟩ := List.append_of_mem member
        have earlier :=
          orderly before u (after ++ v :: rest) (by simp [split]) v (by simp [split]) less
        exact old (List.mem_append_left _ earlier)

/-- Each declared relation and behind it what its clauses mention, with repetitions. -/
def Program.mentioned (program : Program) : List RelationId :=
  program.relationIds.flatMap fun relation => relation :: program.resolver.dependencies relation

namespace Precedence

/-- A relation mentions itself again with each of its dependencies, which adds nothing. -/
theorem eraseDups_labels (resolver : Resolver) (relation : RelationId) (items : List RelationId) :
    (items ++ (relationInsertions resolver relation).flatMap Insertion.labels).eraseDups =
      (items ++ relation :: resolver.dependencies relation).eraseDups := by
  rw [flatMap_relationInsertions (fun dependency => [dependency, relation]) fun _ _ => rfl]
  calc (items ++ ([relation] ++ (resolver.dependencies relation).flatMap
          fun dependency => [dependency, relation])).eraseDups
    _ = (items ++ [relation] ++ (resolver.dependencies relation).flatMap
          fun dependency => [dependency, relation]).eraseDups := by rw [List.append_assoc]
    _ = (items ++ [relation] ++ resolver.dependencies relation).eraseDups :=
        eraseDups_flatMap_again _ _ (List.mem_append_right _ List.mem_cons_self)
    _ = (items ++ relation :: resolver.dependencies relation).eraseDups := by
        rw [← List.append_cons]

/-- The vertices stand in the order in which they are mentioned for the first time. -/
theorem vertices_precedence (program : Program) :
    program.precedence.graph.vertices.toList = program.mentioned.eraseDups := by
  rw [Program.precedence, graph_build, Graph.vertices_ofInsertions, insertions, List.flatMap_assoc]
  exact eraseDups_flatMap_congr (eraseDups_labels program.resolver) program.relationIds []

/-- Exactly the declared relations are mentioned. -/
theorem mem_mentioned_iff {program : Program} {relation : RelationId} :
    relation ∈ program.mentioned ↔ relation ∈ program.relationIds := by
  rw [← List.mem_eraseDups, ← vertices_precedence, Array.mem_toList_iff, mem_vertices_precedence]

theorem vertices_eq_relationIds_iff (program : Program) :
    program.precedence.graph.vertices.toList = program.relationIds ↔
      Ascending program.mentioned.eraseDups := by
  rw [← vertices_precedence]
  constructor
  · intro same
    exact same ▸ program.relationIds_ascending
  · intro ascending
    refine ascending.eq_of_mem_iff program.relationIds_ascending fun v => ?_
    rw [Array.mem_toList_iff, mem_vertices_precedence]

/-- The vertices of the precedence graph of a program are the declared relations, each where it is
mentioned for the first time: relation by relation, a relation itself and then the occurrences in
its clauses. They stand in the order of declaration exactly if each mention comes after one of
every relation that is declared before the mentioned one. The lines of the text and the nodes of
the diagram stand in the order of the vertices. -/
theorem vertices_in_order_of_mention (program : Program) :
    let precedence := program.precedence
    let vertices := precedence.graph.vertices.toList
    vertices = program.mentioned.eraseDups ∧
    vertices.Perm program.relationIds ∧
    (vertices = program.relationIds ↔
      ∀ before u after, program.mentioned = before ++ u :: after →
        ∀ v ∈ program.relationIds, v < u → v ∈ before) ∧
    precedence.text = line "" ++ line "Precedence Graph:" ++ line Program.titleRule ++
      concat (program.mentioned.eraseDups.map fun r => line (precedence.displayName r ++ " <- [" ++
        commaSeparated (precedence.dependencyTexts r) ++ "]")) ∧
    Dot.read? precedence.dot =
      some (program.mentioned.eraseDups.map precedence.displayName, precedence.displayEdges) := by
  intro precedence vertices
  have inOrder : vertices = program.mentioned.eraseDups := vertices_precedence program
  have wellFormed : precedence.graph.WellFormed := wellFormed_build program program.resolver
  refine ⟨inOrder, ?_, ?_, ?_, ?_⟩
  · refine (List.perm_ext_iff_of_nodup wellFormed.vertices_nodup
      program.relationIds_ascending.nodup).mpr fun v => ?_
    rw [Array.mem_toList_iff, mem_vertices_precedence]
  · rw [vertices_eq_relationIds_iff, ascending_eraseDups_iff]
    simp only [mem_mentioned_iff]
  · rw [← inOrder]
    rfl
  · rw [read?_dot wellFormed, displayNames, ← inOrder]

end Precedence

/-! ## A relation that is mentioned ahead -/

namespace MentionedAhead

/-- Three relations, the first of which depends on the third. -/
def program : Program where
  declarations := [⟨⟨["a"]⟩, []⟩, ⟨⟨["b"]⟩, []⟩, ⟨⟨["c"]⟩, []⟩]
  clauses := [⟨.propositional "a", [.atom (.propositional "c")]⟩]

/-- The third relation comes before the second, in the graph and in its listings. -/
theorem not_in_declaration_order :
    program.relationIds = [⟨0⟩, ⟨1⟩, ⟨2⟩] ∧
    program.precedence.graph.vertices.toList = [⟨0⟩, ⟨2⟩, ⟨1⟩] ∧
    program.precedence.displayNames = ["a", "c", "b"] ∧
    ¬ program.precedence.graph.vertices.toList = program.relationIds := by
  decide

end MentionedAhead

end DatalogStrata
