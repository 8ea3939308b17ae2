import DatalogStrata.Proofs.Stratum.Strata

/-!
# Negation in a head

What occurs in the arguments of a head makes positive edges, also when it is negated there. So a
relation that negates another one in an aggregate of its head is placed behind it as behind
anything else that it depends on: it comes strictly later unless the two depend on each other, and
if they do they share a stratum and the program is accepted all the same.

## Main definitions

* `CountedInHead.program` — two relations that count in their heads what is not in the first

## Main results

* `Graph.IsLayering.place_eq_iff` — when two relations share a layer
* `Precedence.hasEdge_precedence` — the edges under the resolver of the program
* `head_occurrence_before_unless_mutual` — where a relation is placed that occurs in a head
-/

namespace DatalogStrata

/-- Two relations share a layer when they reach each other. -/
theorem Graph.IsLayering.place_eq_iff {graph : Graph RelationId}
    {layers : List (List RelationId)} (layering : graph.IsLayering layers) {u v : RelationId}
    {i j : Nat} (atU : layerPlace? layers u = some i) (atV : layerPlace? layers v = some j) :
    i = j ↔ graph.Reaches u v ∧ graph.Reaches v u := by
  obtain ⟨layer, atI, inU⟩ := layering.place_iff.mp atU
  rw [← layering.class_iff layer (List.mem_of_getElem? atI) u inU v]
  constructor
  · rintro rfl
    obtain ⟨other, atOther, inV⟩ := layering.place_iff.mp atV
    exact Option.some_inj.mp (atOther.symm.trans atI) ▸ inV
  · intro inV
    exact Option.some_inj.mp ((layering.place_iff.mpr ⟨layer, atI, inV⟩).symm.trans atV)

namespace Precedence

variable {program : Program} {u v : RelationId}

/-- Only declared relations have clauses, so an edge leads to whatever depends on something. -/
theorem hasEdge_precedence :
    program.precedence.graph.HasEdge u v ↔ program.resolver.DependsOn v u := by
  rw [Program.precedence, hasEdge_build]
  refine and_iff_right_of_imp ?_
  rintro ⟨clause, defines, -⟩
  rw [Program.resolver_clauses, List.mem_filter, decide_eq_true_eq] at defines
  exact Program.declared_of_relation? defines.2

/-- One relation reaches another when the other depends on it, directly or through others. -/
theorem reaches_precedence : program.precedence.graph.Reaches u v ↔
    Relation.ReflTransGen program.resolver.DependsOn v u := by
  have edges : program.precedence.graph.HasEdge = Function.swap program.resolver.DependsOn := by
    funext x y
    exact propext hasEdge_precedence
  rw [Graph.Reaches, edges, Relation.reflTransGen_swap]

end Precedence

/-- In an accepted program whatever occurs in an argument of a head, negated or not, has a stratum
no later than that of the relation which the clause defines. It comes strictly before unless it is
that relation itself or depends on it, directly or through others. -/
theorem head_occurrence_before_unless_mutual (program : Program) {stratification : Stratification}
    (accepted : program.precedence.stratify = .ok stratification) :
    ∀ clause ∈ program.clauses, ∀ r, program.resolver.relation? clause.head.name = some r →
      ∀ o, clause.HeadContains o → ∀ u, program.resolver.relation? o.atom.name = some u →
        ∃ i j, stratification.place? u = some i ∧ stratification.place? r = some j ∧ i ≤ j ∧
          (i < j ↔ ¬ Relation.ReflTransGen program.resolver.DependsOn u r) := by
  intro clause listed r defined o inside u resolved
  have wellFormed := Precedence.wellFormed_build program program.resolver
  have layering := Precedence.isLayering_of_eq_ok wellFormed accepted
  have defines : clause ∈ program.resolver.clauses r := by
    rw [Program.resolver_clauses, List.mem_filter, decide_eq_true_eq]
    exact ⟨listed, defined⟩
  have edge : program.precedence.graph.HasEdge u r :=
    Precedence.hasEdge_precedence.mpr ⟨clause, defines, o, Or.inr inside, resolved⟩
  obtain ⟨i, atU⟩ := layering.exists_place (Graph.mem_vertices_of_hasEdge edge).1
  obtain ⟨j, atR⟩ := layering.exists_place (Graph.mem_vertices_of_hasEdge edge).2
  have ordered : i ≤ j := layering.place_le edge atU atR
  -- The edge leads one way, so they share a stratum exactly if there is a way back.
  have shared : i = j ↔ Relation.ReflTransGen program.resolver.DependsOn u r := by
    rw [layering.place_eq_iff atU atR, ← Precedence.reaches_precedence]
    exact and_iff_right (.single edge)
  refine ⟨i, j, (Precedence.place?_eq _ u).trans atU, (Precedence.place?_eq _ r).trans atR,
    ordered, ?_⟩
  rw [← shared]
  exact ordered.lt_iff_ne

namespace CountedInHead

/-- The clause of a relation that counts in its head what is not in the first relation. -/
def clause (name : String) : Clause :=
  ⟨⟨⟨[name]⟩, [.aggregate .count none [.negation (.propositional "a")]]⟩, []⟩

def program : Program :=
  ⟨[⟨⟨["a"]⟩, []⟩, ⟨⟨["b"]⟩, []⟩], [clause "a", clause "b"]⟩

theorem headContains (name : String) :
    (clause name).HeadContains ⟨.propositional "a", true⟩ :=
  ⟨_, List.mem_cons_self, .body List.mem_cons_self .negation⟩

theorem edges_eq : program.precedence.graph.edges =
    [⟨⟨0⟩, ⟨0⟩, .positive⟩, ⟨⟨0⟩, ⟨1⟩, .positive⟩] := by
  decide

theorem accepted : ∃ s, program.precedence.stratify = .ok s := by
  refine ⟨_, (Precedence.eq_ok_iff (Precedence.wellFormed_build program _)).mpr ⟨?_, rfl⟩⟩
  rintro ⟨u, v, negative, -⟩
  have listed : ⟨u, v, .negative⟩ ∈ program.precedence.graph.edges := negative
  simp [edges_eq] at listed

theorem not_dependsOn_second (u : RelationId) : ¬ program.resolver.DependsOn u ⟨1⟩ := by
  rw [← Precedence.hasEdge_precedence, Graph.HasEdge, edges_eq]
  simp

/-- The second relation is placed behind the one that its head negates. -/
theorem first_before_second : ∃ s, program.precedence.stratify = .ok s ∧
    ∃ i j, s.place? ⟨0⟩ = some i ∧ s.place? ⟨1⟩ = some j ∧ i < j := by
  obtain ⟨s, accepted⟩ := accepted
  obtain ⟨i, j, atFirst, atSecond, -, before⟩ :=
    head_occurrence_before_unless_mutual program accepted (clause "b") (by simp [program]) ⟨1⟩
      (by decide) _ (headContains "b") ⟨0⟩ (by decide)
  refine ⟨s, accepted, i, j, atFirst, atSecond, before.mpr ?_⟩
  intro depends
  cases depends with
  | tail _ last => exact not_dependsOn_second _ last

/-- The first relation is accepted though its head negates it, and it is not placed before
itself. -/
theorem first_not_before_itself : ∃ s, program.precedence.stratify = .ok s ∧
    clause "a" ∈ program.clauses ∧
    program.resolver.relation? (clause "a").head.name = some ⟨0⟩ ∧
    (clause "a").HeadContains ⟨.propositional "a", true⟩ ∧
    program.resolver.relation? (Atom.propositional "a").name = some ⟨0⟩ ∧
    ¬ ∃ i j, s.place? ⟨0⟩ = some i ∧ s.place? ⟨0⟩ = some j ∧ i < j := by
  obtain ⟨s, accepted⟩ := accepted
  refine ⟨s, accepted, by simp [program], by decide, headContains "a", by decide, ?_⟩
  rintro ⟨i, j, atI, atJ, before⟩
  exact Nat.ne_of_lt before (Option.some_inj.mp (atI.symm.trans atJ))

end CountedInHead

end DatalogStrata
