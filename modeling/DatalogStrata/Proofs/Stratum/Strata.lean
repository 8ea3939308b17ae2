import DatalogStrata.Proofs.Stratum.Layering
import DatalogStrata.Proofs.Stratum.Negation

/-!
# The strata of an accepted program

The strata of an accepted program are the layers of its precedence graph in the order of
evaluation. Every vertex has its place in exactly one of them, dependencies lead forward or stay in
one stratum, and negative dependencies lead strictly forward, because a negative dependency inside a
stratum would lie on a cycle.

## Main results

* `Graph.IsLayering.place_iff` — the place of a relation in a layering
* `Precedence.relations_of_eq_ok` — the strata are the layers in the order of evaluation
* `stratify_respects_dependencies` — dependencies lead forward, and negative ones strictly
* `stratify_least_layering` — the strata are the least layering of the precedence graph
-/

namespace DatalogStrata

/-! ## Places in a layering -/

/-- The place of the layer that holds a relation. -/
def layerPlace? (layers : List (List RelationId)) (relation : RelationId) : Option Nat :=
  layers.findIdx? fun layer => relation ∈ layer

theorem stratumPlace?_eq (strata : List Stratum) (relation : RelationId) :
    stratumPlace? strata relation = layerPlace? (strata.map Stratum.relations) relation := by
  rw [stratumPlace?, layerPlace?, List.findIdx?_map]
  rfl

namespace Graph.IsLayering

variable {graph : Graph RelationId} {layers : List (List RelationId)} {u v : RelationId}
  {i j : Nat} (layering : graph.IsLayering layers)
include layering

theorem place_unique {first second : List RelationId} (atI : layers[i]? = some first)
    (atJ : layers[j]? = some second) (inFirst : v ∈ first) (inSecond : v ∈ second) : i = j := by
  have same : first = second := layering.layer_eq layering (List.mem_of_getElem? atI)
    (List.mem_of_getElem? atJ) inFirst inSecond
  have bound := (List.getElem?_eq_some_iff.mp atI).1
  exact (List.getElem?_inj bound layering.distinct).mp (atI.trans (same ▸ atJ.symm))

/-- A relation has a place exactly when the layer at that place holds it. -/
theorem place_iff : layerPlace? layers v = some i ↔
    ∃ layer, layers[i]? = some layer ∧ v ∈ layer := by
  constructor
  · intro found
    obtain ⟨bound, member, -⟩ := List.findIdx?_eq_some_iff_getElem.mp found
    exact ⟨_, List.getElem?_eq_getElem bound, of_decide_eq_true member⟩
  · rintro ⟨layer, atI, inside⟩
    cases found : layerPlace? layers v with
    | none =>
      have missing := List.findIdx?_eq_none_iff.mp found layer (List.mem_of_getElem? atI)
      exact absurd inside (of_decide_eq_false missing)
    | some other =>
      obtain ⟨bound, member, -⟩ := List.findIdx?_eq_some_iff_getElem.mp found
      rw [layering.place_unique (List.getElem?_eq_getElem bound) atI
        (of_decide_eq_true member) inside]

theorem exists_place (vertex : v ∈ graph.vertices) : ∃ i, layerPlace? layers v = some i := by
  obtain ⟨layer, member, inside⟩ := layering.covers v vertex
  obtain ⟨i, atI⟩ := List.mem_iff_getElem?.mp member
  exact ⟨i, layering.place_iff.mpr ⟨layer, atI, inside⟩⟩

/-- Edges lead forward or stay in one layer. -/
theorem place_le (edge : graph.HasEdge u v) (atU : layerPlace? layers u = some i)
    (atV : layerPlace? layers v = some j) : i ≤ j := by
  obtain ⟨first, atI, inFirst⟩ := layering.place_iff.mp atU
  obtain ⟨second, atJ, inSecond⟩ := layering.place_iff.mp atV
  by_contra back
  obtain ⟨boundI, rfl⟩ := List.getElem?_eq_some_iff.mp atI
  obtain ⟨boundJ, rfl⟩ := List.getElem?_eq_some_iff.mp atJ
  exact List.pairwise_iff_getElem.mp layering.forward j i boundJ boundI (by omega)
    u inFirst v inSecond edge

/-- Without negation on a cycle, negative edges lead strictly forward. -/
theorem place_lt (safe : ¬ graph.HasNegativeCycle)
    (edge : (⟨u, v, .negative⟩ : Edge RelationId) ∈ graph.edges)
    (atU : layerPlace? layers u = some i) (atV : layerPlace? layers v = some j) : i < j := by
  refine Nat.lt_of_le_of_ne (layering.place_le ⟨.negative, edge⟩ atU atV) ?_
  rintro rfl
  obtain ⟨layer, atI, inU⟩ := layering.place_iff.mp atU
  obtain ⟨other, atJ, inV⟩ := layering.place_iff.mp atV
  obtain rfl := Option.some_inj.mp (atI.symm.trans atJ)
  have back := ((layering.class_iff layer (List.mem_of_getElem? atI) v inV u).mp inU).1
  exact safe ⟨u, v, edge, back⟩

end Graph.IsLayering

/-! ## The strata -/

namespace Precedence

variable {precedence : Precedence} {stratification : Stratification}

theorem relations_mapIdx_withReads (graph : Graph RelationId)
    (placeOf? : RelationId → Option Nat) (strata : List Stratum) :
    (strata.mapIdx (Stratum.withReads graph placeOf?)).map Stratum.relations =
      strata.map Stratum.relations := by
  apply List.ext_getElem?
  intro i
  simp only [List.getElem?_map, List.getElem?_mapIdx, Option.map_map]
  rfl

/-- The strata of a graph are the layers of its decomposition. -/
theorem relations_layers (precedence : Precedence) {decomposition : Decomposition}
    {graph : Graph RelationId} (represents : decomposition.Represents graph) :
    (precedence.layers decomposition).map Stratum.relations = decomposition.layering := by
  rw [layers, relations_mapIdx_withReads, Decomposition.layering, List.map_filterMap,
    ← List.filterMap_eq_map]
  refine List.filterMap_congr fun id ordered => ?_
  -- Each number in the order is that of a component, so none is left out.
  have vertex := represents.isSchedule_evaluationOrder.mem_iff.mp ordered
  obtain ⟨component, found⟩ := Decomposition.component?_eq_some_iff.mpr
    (represents.mem_condensation_iff.mp vertex)
  simp only [found, Option.map_some, Decomposition.relationsOf_eq found, Function.comp_apply,
    Stratum.ofComponent]

/-- The strata of an accepted program are the layers in the order of evaluation. -/
theorem relations_of_eq_ok (wellFormed : precedence.graph.WellFormed)
    (accepted : precedence.stratify = .ok stratification) :
    stratification.strata.map Stratum.relations =
      (Decomposition.ofGraph precedence.graph).layering := by
  obtain ⟨-, rfl⟩ := (eq_ok_iff wellFormed).mp accepted
  exact precedence.relations_layers (Decomposition.represents_ofGraph wellFormed)

theorem isLayering_of_eq_ok (wellFormed : precedence.graph.WellFormed)
    (accepted : precedence.stratify = .ok stratification) :
    precedence.graph.IsLayering (stratification.strata.map Stratum.relations) :=
  relations_of_eq_ok wellFormed accepted ▸
    (Decomposition.represents_ofGraph wellFormed).isLayering_layering

theorem place?_eq (stratification : Stratification) (relation : RelationId) :
    stratification.place? relation =
      layerPlace? (stratification.strata.map Stratum.relations) relation :=
  stratumPlace?_eq stratification.strata relation

end Precedence

/-- In the strata of an accepted program what a relation depends on has its place no later than the
relation itself, and what it negates in a body has an earlier one. Every vertex of the precedence
graph is in exactly one stratum, and its place is the place of that stratum. -/
theorem stratify_respects_dependencies (program : Program) (resolver : Resolver)
    {stratification : Stratification}
    (accepted : (Precedence.build program resolver).stratify = .ok stratification) :
    (∀ r ∈ program.relationIds, ∀ clause ∈ resolver.clauses r, ∀ o u,
      clause.BodyContains o ∨ clause.HeadContains o → resolver.relation? o.atom.name = some u →
        ∃ i j, stratification.place? u = some i ∧ stratification.place? r = some j ∧ i ≤ j ∧
          (clause.BodyContains o → o.negated = true → i < j)) ∧
    ∀ v ∈ (Precedence.build program resolver).graph.vertices, ∃ i stratum,
      stratification.strata[i]? = some stratum ∧ v ∈ stratum.relations ∧
        stratification.place? v = some i ∧
          ∀ j other, stratification.strata[j]? = some other → v ∈ other.relations → j = i := by
  have wellFormed := Precedence.wellFormed_build program resolver
  have layering := Precedence.isLayering_of_eq_ok wellFormed accepted
  have safe := ((Precedence.eq_ok_iff wellFormed).mp accepted).1
  constructor
  · intro r declared clause defines o u occurs resolved
    have edge : (Precedence.build program resolver).graph.HasEdge u r :=
      Precedence.hasEdge_build.mpr ⟨declared, clause, defines, o, occurs, resolved⟩
    obtain ⟨i, atU⟩ := layering.exists_place (Graph.mem_vertices_of_hasEdge edge).1
    obtain ⟨j, atR⟩ := layering.exists_place (Graph.mem_vertices_of_hasEdge edge).2
    refine ⟨i, j, (Precedence.place?_eq _ u).trans atU, (Precedence.place?_eq _ r).trans atR,
      layering.place_le edge atU atR, fun inBody negated => ?_⟩
    have negative := Precedence.negative_build.mpr
      ⟨declared, clause, defines, o, inBody, negated, resolved⟩
    exact layering.place_lt safe negative atU atR
  · intro v vertex
    obtain ⟨i, atV⟩ := layering.exists_place vertex
    obtain ⟨layer, atI, inside⟩ := layering.place_iff.mp atV
    have atStratum := atI
    rw [List.getElem?_map, Option.map_eq_some_iff] at atStratum
    obtain ⟨stratum, found, rfl⟩ := atStratum
    refine ⟨i, stratum, found, inside, (Precedence.place?_eq _ v).trans atV, ?_⟩
    intro j other foundOther insideOther
    have atJ : (stratification.strata.map Stratum.relations)[j]? = some other.relations := by
      rw [List.getElem?_map, foundOther, Option.map_some]
    exact layering.place_unique atJ atI insideOther inside

namespace ReadAndCounted

/-- A relation that reads another one in its head and counts what is not in it. -/
def clause : Clause :=
  let base : Atom := ⟨⟨["base"]⟩, []⟩
  ⟨⟨⟨["summary"]⟩, [.aggregate .sum none [.atom base]]⟩,
    [.constraint (.variable "n") .equal (.aggregate .count none [.negation base])]⟩

def program : Program :=
  ⟨[⟨⟨["base"]⟩, []⟩, ⟨⟨["summary"]⟩, []⟩], [clause]⟩

theorem accepted :
    ∃ s, (Precedence.build program program.resolver).stratify = .ok s := by
  have safe : ¬ ∃ rejection,
      (Precedence.build program program.resolver).stratify = .error rejection := by
    rw [Precedence.exists_error_build_iff]
    rintro ⟨r, declared, u, ⟨other, defines, o, inside, -, resolved⟩, path⟩
    have depends {x : RelationId} : ¬ program.resolver.DependsOn ⟨0⟩ x :=
      fun ⟨_, defines, _⟩ => List.not_mem_nil defines
    obtain rfl | rfl : r = ⟨0⟩ ∨ r = ⟨1⟩ := by simpa using (by exact declared : r ∈ [⟨0⟩, ⟨1⟩])
    · exact List.not_mem_nil defines
    · obtain rfl : other = clause := List.mem_singleton.mp defines
      obtain rfl : o = ⟨⟨⟨["base"]⟩, []⟩, true⟩ :=
        List.mem_singleton.mp (Clause.mem_bodyOccurrences_iff.mpr inside)
      obtain rfl : ⟨0⟩ = u := Option.some_inj.mp resolved
      -- What is counted has no clauses, so no path leads back to it.
      cases path with
      | tail _ edge => exact depends edge.2
  cases result : (Precedence.build program program.resolver).stratify with
  | error rejection => exact absurd ⟨rejection, result⟩ safe
  | ok s => exact ⟨s, rfl⟩

/-- The relation that is counted has its place before the one that counts. -/
theorem base_before_summary :
    ∃ s, (Precedence.build program program.resolver).stratify = .ok s ∧
      ∃ i j, s.place? ⟨0⟩ = some i ∧ s.place? ⟨1⟩ = some j ∧ i < j := by
  obtain ⟨s, accepted⟩ := accepted
  have negated : clause.BodyContains ⟨⟨⟨["base"]⟩, []⟩, true⟩ :=
    ⟨_, List.mem_cons_self, .right (.body List.mem_cons_self .negation)⟩
  obtain ⟨i, j, atBase, atSummary, -, before⟩ :=
    (stratify_respects_dependencies program program.resolver accepted).1 ⟨1⟩ (by decide) clause
      List.mem_cons_self _ ⟨0⟩ (Or.inl negated) rfl
  exact ⟨s, accepted, i, j, atBase, atSummary, before negated rfl⟩

end ReadAndCounted

/-- The strata of an accepted program are its strongly connected components in the one order that
is least: no edge leads back, and any other order of the components without an edge that leads
back has a lexicographically greater sequence of earliest declarations. Neither the numbers of the
components nor the order in which the queue is filled at the start has a part in it. -/
theorem stratify_least_layering (program : Program) (resolver : Resolver)
    {stratification : Stratification}
    (accepted : (Precedence.build program resolver).stratify = .ok stratification) :
    let graph := (Precedence.build program resolver).graph
    let strata := stratification.strata.map Stratum.relations
    strata.Perm (stratification.decomposition.components.toList.map fun component =>
      component.members.toList) ∧
    graph.IsLayering strata ∧
    (∀ layers, graph.IsLayering layers →
      layers = strata ∨ firstDeclarations strata < firstDeclarations layers) ∧
    ∀ decomposition : Decomposition, decomposition.Represents graph →
      ∀ vertices : List ComponentId,
        vertices.Perm decomposition.condensation.vertices.toList →
          ((Agenda.startFrom decomposition vertices).finish decomposition).order.toList.map
            decomposition.relationsOf = strata := by
  intro graph strata
  have wellFormed := Precedence.wellFormed_build program resolver
  have represents : (Decomposition.ofGraph graph).Represents graph :=
    Decomposition.represents_ofGraph wellFormed
  have constructed : strata = (Decomposition.ofGraph graph).layering :=
    Precedence.relations_of_eq_ok wellFormed accepted
  have layering : graph.IsLayering strata := Precedence.isLayering_of_eq_ok wellFormed accepted
  refine ⟨?_, layering, ?_, ?_⟩
  · obtain ⟨-, rfl⟩ := (Precedence.eq_ok_iff wellFormed).mp accepted
    rw [constructed]
    exact represents.layering_perm
  · intro layers other
    have least := represents.layering_le other
    rw [← constructed] at least
    rcases lt_or_eq_of_le least with less | same
    · exact Or.inr less
    · exact Or.inl (other.eq_of_firstDeclarations layering same.symm)
  · intro decomposition representsToo vertices same
    have distinct : vertices.Nodup :=
      same.nodup_iff.mpr representsToo.condensation_wellFormed.vertices_nodup
    rw [Agenda.startFrom_eq distinct same, constructed]
    exact representsToo.layering_eq represents

namespace Unrelated

/-- Two relations without clauses. -/
def program : Program :=
  ⟨[⟨⟨["a"]⟩, []⟩, ⟨⟨["b"]⟩, []⟩], []⟩

def resolver : Resolver :=
  .ofTables [] []

def precedence : Precedence :=
  Precedence.build program resolver

theorem not_dependsOn (u v : RelationId) : ¬ resolver.DependsOn v u :=
  fun ⟨_, defines, _⟩ => List.not_mem_nil defines

theorem mem_vertices_iff {v : RelationId} :
    v ∈ precedence.graph.vertices ↔ v = ⟨0⟩ ∨ v = ⟨1⟩ := by
  have declared : program.relationIds = [⟨0⟩, ⟨1⟩] := rfl
  simp only [precedence, Precedence.mem_vertices_build, not_dependsOn, and_false, exists_false,
    or_false, declared, List.mem_cons, List.not_mem_nil]

theorem not_hasEdge (u v : RelationId) : ¬ precedence.graph.HasEdge u v :=
  fun edge => not_dependsOn u v (Precedence.hasEdge_build.mp edge).2

theorem accepted : ∃ s, precedence.stratify = .ok s := by
  refine ⟨_, (Precedence.eq_ok_iff (Precedence.wellFormed_build program resolver)).mpr ⟨?_, rfl⟩⟩
  rintro ⟨u, v, edge, -⟩
  exact not_hasEdge u v ⟨.negative, edge⟩

/-- Against the order of declarations the two relations are layers as well. -/
theorem isLayering_reverse : precedence.graph.IsLayering [[⟨1⟩], [⟨0⟩]] := by
  have reaches {v w : RelationId} : precedence.graph.Reaches v w ↔ v = w := by
    constructor
    · intro reach
      cases reach with
      | refl => rfl
      | tail _ edge => exact absurd edge (not_hasEdge _ _)
    · rintro rfl
      exact .refl
  refine ⟨?_, ?_, by simp, ?_, by simp [Ascending], by decide, ?_⟩
  · intro v vertex
    rcases mem_vertices_iff.mp vertex with rfl | rfl <;> simp
  · simp only [List.mem_cons, List.not_mem_nil, or_false, forall_eq_or_imp, forall_eq,
      mem_vertices_iff, or_true, true_or, and_self]
  · simp only [reaches]
    grind
  · exact .cons (fun _ _ u _ v _ => not_hasEdge u v) (List.pairwise_singleton _ _)

/-- The reverse order is not less than that of the strata, which is found also when the queue is
filled in reverse. -/
theorem declaration_order :
    let decomposition := Decomposition.ofGraph precedence.graph
    let vertices := decomposition.condensation.vertices.toList.reverse
    ∃ s, precedence.stratify = .ok s ∧
      ([[⟨1⟩], [⟨0⟩]] = s.strata.map Stratum.relations ∨
        firstDeclarations (s.strata.map Stratum.relations) < [1, 0]) ∧
      ((Agenda.startFrom decomposition vertices).finish decomposition).order.toList.map
        decomposition.relationsOf = s.strata.map Stratum.relations := by
  intro decomposition vertices
  obtain ⟨s, accepted⟩ := accepted
  have represents :=
    Decomposition.represents_ofGraph (Precedence.wellFormed_build program resolver)
  obtain ⟨-, -, least, independent⟩ := stratify_least_layering program resolver accepted
  exact ⟨s, accepted, least _ isLayering_reverse,
    independent decomposition represents vertices (List.reverse_perm _)⟩

end Unrelated

end DatalogStrata
