import DatalogStrata.Proofs.Stratum.Reads
import Mathlib.Algebra.Module.Submodule.Lattice
import Mathlib.Computability.Primrec.List
import Mathlib.Data.List.Permutation

/-!
# What a stratum takes in

The strata of an accepted program are the classes of its precedence graph in an order in which
edges lead forward, so whatever a stratum reads has its place in an earlier stratum or in the same
one. Nothing that it reads is left out of both of its lists.

What a stratum iterates over is collected edge by edge. Still it is all or nothing: the members of
a recursive stratum lie on closed walks, and the first edge of a closed walk leads to another
member, while an edge between members of any stratum begins a closed walk.

## Main results

* `Precedence.exists_place_le` — what a stratum reads has its place there or earlier
* `Precedence.mem_enter_iff_outside` — a stratum enters with all that it reads from outside
* `Precedence.mem_iterative_iff_closedWalk` — a stratum iterates over its members on closed walks
* `enter_complete_and_sound` — what a stratum enters with, by the edges and by the clauses
* `iterates_over_all_or_nothing` — a recursive stratum iterates over all of its relations
-/

namespace DatalogStrata

namespace Precedence

variable {precedence : Precedence} {stratification : Stratification} {stratum : Stratum}
  {place : Nat} {u v : RelationId}

theorem getElem?_relations (found : stratification.strata[place]? = some stratum) :
    (stratification.strata.map Stratum.relations)[place]? = some stratum.relations := by
  rw [List.getElem?_map, found, Option.map_some]

section Accepted

variable (wellFormed : precedence.graph.WellFormed)
  (accepted : precedence.stratify = .ok stratification)
  (found : stratification.strata[place]? = some stratum)
include wellFormed accepted found

/-- The relations of a stratum are those that have their place there. -/
theorem place?_eq_some_iff :
    stratification.place? u = some place ↔ u ∈ stratum.relations := by
  have layering := isLayering_of_eq_ok wellFormed accepted
  have atPlace := getElem?_relations found
  rw [place?_eq, layering.place_iff]
  constructor
  · intro held
    obtain ⟨layer, atLayer, inside⟩ := held
    exact Option.some_inj.mp (atLayer.symm.trans atPlace) ▸ inside
  · exact fun inside => ⟨_, atPlace, inside⟩

/-! ## Relations of earlier strata -/

/-- What a stratum reads has its place there or earlier. -/
theorem exists_place_le (inside : v ∈ stratum.relations) (edge : precedence.graph.HasEdge u v) :
    ∃ earlier, stratification.place? u = some earlier ∧ earlier ≤ place := by
  have layering := isLayering_of_eq_ok wellFormed accepted
  obtain ⟨earlier, atU⟩ := layering.exists_place (Graph.mem_vertices_of_hasEdge edge).1
  have atV := (place?_eq_some_iff wellFormed accepted found).mpr inside
  rw [place?_eq] at atV
  refine ⟨earlier, ?_, layering.place_le edge atU atV⟩
  rw [place?_eq, atU]

/-- A stratum enters with all that it reads from outside. -/
theorem mem_enter_iff_outside : u ∈ stratum.enter ↔
    u ∉ stratum.relations ∧ ∃ v ∈ stratum.relations, precedence.graph.HasEdge u v := by
  rw [mem_enter_iff wellFormed accepted found, ← place?_eq_some_iff wellFormed accepted found]
  constructor
  · intro entered
    obtain ⟨read, earlier, atEarlier, before⟩ := entered
    refine ⟨?_, read⟩
    intro atPlace
    have same := Option.some_inj.mp (atEarlier.symm.trans atPlace)
    omega
  · intro outside
    obtain ⟨notHere, v, inside, edge⟩ := outside
    obtain ⟨earlier, atEarlier, before⟩ := exists_place_le wellFormed accepted found inside edge
    refine ⟨⟨v, inside, edge⟩, earlier, atEarlier, Nat.lt_of_le_of_ne before ?_⟩
    -- At the place itself stand only the relations of the stratum.
    intro same
    exact notHere (same ▸ atEarlier)

/-- Whatever a stratum reads is noted: by its place it is entered with or iterated over. -/
theorem noted (inside : v ∈ stratum.relations) (edge : precedence.graph.HasEdge u v) :
    ∃ earlier, stratification.place? u = some earlier ∧
      (earlier < place ∧ u ∈ stratum.enter ∨ earlier = place ∧ u ∈ stratum.iterative) := by
  obtain ⟨earlier, atU, notLater⟩ := exists_place_le wellFormed accepted found inside edge
  refine ⟨earlier, atU, ?_⟩
  rcases Nat.lt_or_eq_of_le notLater with before | same
  · exact Or.inl ⟨before, (mem_enter_iff wellFormed accepted found).mpr
      ⟨⟨v, inside, edge⟩, earlier, atU, before⟩⟩
  · exact Or.inr ⟨same, (mem_iterative_iff wellFormed accepted found).mpr
      ⟨⟨v, inside, edge⟩, same ▸ atU⟩⟩

/-- What a stratum reads is entered with or belongs to the stratum. -/
theorem mem_enter_or_mem_relations (inside : v ∈ stratum.relations)
    (edge : precedence.graph.HasEdge u v) : u ∈ stratum.enter ∨ u ∈ stratum.relations := by
  rw [mem_enter_iff_outside wellFormed accepted found]
  by_cases own : u ∈ stratum.relations
  · exact Or.inr own
  · exact Or.inl ⟨own, v, inside, edge⟩

/-! ## Relations of the stratum itself -/

/-- Two members of a stratum reach each other, and together they reach no other relation that
leads back to them. -/
theorem mem_relations_iff (inside : v ∈ stratum.relations) :
    u ∈ stratum.relations ↔ precedence.graph.Reaches v u ∧ precedence.graph.Reaches u v :=
  (isLayering_of_eq_ok wellFormed accepted).class_iff _
    (List.mem_of_getElem? (getElem?_relations found)) v inside u

/-- A stratum iterates over those of its members that lie on a closed walk. -/
theorem mem_iterative_iff_closedWalk : u ∈ stratum.iterative ↔
    u ∈ stratum.relations ∧ Relation.TransGen precedence.graph.HasEdge u u := by
  rw [mem_iterative_iff wellFormed accepted found, place?_eq_some_iff wellFormed accepted found,
    and_comm]
  refine and_congr_right fun own => ?_
  constructor
  · intro read
    obtain ⟨v, inside, edge⟩ := read
    have back := ((mem_relations_iff wellFormed accepted found own).mp inside).2
    exact .head' edge back
  · intro walk
    obtain ⟨next, edge, back⟩ := Relation.TransGen.head'_iff.mp walk
    -- The walk returns, so it never leaves the stratum.
    have inside := (mem_relations_iff wellFormed accepted found own).mpr ⟨.single edge, back⟩
    exact ⟨next, inside, edge⟩

/-- All members of a recursive stratum lie on closed walks, and no member of another one does. -/
theorem closedWalk_iff_recursive (own : u ∈ stratum.relations) :
    Relation.TransGen precedence.graph.HasEdge u u ↔ stratum.recursive = true := by
  have walks : stratum.recursive = true ↔
      ∃ v ∈ stratum.relations, Relation.TransGen precedence.graph.HasEdge v v := by
    obtain ⟨id, component, isComponent, rfl⟩ := stratum_of_eq_ok wellFormed accepted found
    simpa [Stratum.withReads, Stratum.ofComponent] using
      (Decomposition.represents_ofGraph wellFormed).recursive_iff_closedWalk isComponent
  rw [walks]
  constructor
  · exact fun walk => ⟨u, own, walk⟩
  · intro some
    obtain ⟨v, inside, walk⟩ := some
    -- From any member a way leads to the closed walk and, once around it, back.
    obtain ⟨forth, back⟩ := (mem_relations_iff wellFormed accepted found own).mp inside
    exact .trans_right forth (walk.trans_left back)

end Accepted

end Precedence

/-! ## The two lists of a stratum -/

/-- A stratum of an accepted program enters with exactly the relations outside of it from which an
edge leads to one of its own, in declaration order, and all of them have an earlier place. Each
dependency of a stratum is noted: its place is known and not later, so it is entered with or
iterated over. In terms of clauses, what a declared relation of the stratum depends on is entered
with or belongs to the stratum. This covers all relations of the stratum when the resolver knows no
clauses of undeclared ones; clauses that it knows nevertheless are never looked at. -/
theorem enter_complete_and_sound (program : Program) (resolver : Resolver)
    {stratification : Stratification} {place : Nat} {stratum : Stratum}
    (accepted : (Precedence.build program resolver).stratify = .ok stratification)
    (found : stratification.strata[place]? = some stratum) :
    let graph := (Precedence.build program resolver).graph
    Ascending stratum.enter ∧
    (∀ u, u ∈ stratum.enter ↔
      u ∉ stratum.relations ∧ ∃ v ∈ stratum.relations, graph.HasEdge u v) ∧
    (∀ u ∈ stratum.enter, ∃ earlier, stratification.place? u = some earlier ∧ earlier < place) ∧
    (∀ v ∈ stratum.relations, ∀ u ∈ graph.predecessors v, ∃ earlier,
      stratification.place? u = some earlier ∧
        (earlier < place ∧ u ∈ stratum.enter ∨ earlier = place ∧ u ∈ stratum.iterative)) ∧
    (∀ r ∈ stratum.relations, r ∈ program.relationIds → ∀ u, resolver.DependsOn r u →
      u ∈ stratum.enter ∨ u ∈ stratum.relations) ∧
    ((∀ id, id ∉ program.relationIds → resolver.clauses id = []) →
      ∀ r ∈ stratum.relations, ∀ u, resolver.DependsOn r u →
        u ∈ stratum.enter ∨ u ∈ stratum.relations) := by
  intro graph
  have wellFormed := Precedence.wellFormed_build program resolver
  have read {r u : RelationId} (inside : r ∈ stratum.relations) (declared : r ∈ program.relationIds)
      (depends : resolver.DependsOn r u) : u ∈ stratum.enter ∨ u ∈ stratum.relations :=
    Precedence.mem_enter_or_mem_relations wellFormed accepted found inside
      (Precedence.hasEdge_build.mpr ⟨declared, depends⟩)
  refine ⟨Precedence.enter_ascending wellFormed accepted found, ?_, ?_, ?_, ?_, ?_⟩
  · exact fun u => Precedence.mem_enter_iff_outside wellFormed accepted found
  · intro u entered
    exact ((Precedence.mem_enter_iff wellFormed accepted found).mp entered).2
  · intro v inside u listed
    exact Precedence.noted wellFormed accepted found inside
      (wellFormed.mem_predecessors_iff.mp listed)
  · exact fun r inside declared u depends => read inside declared depends
  · intro silent r inside u depends
    refine read inside ?_ depends
    -- A relation that depends on something has a clause, so it is declared.
    by_contra undeclared
    obtain ⟨clause, defines, -⟩ := depends
    rw [silent r undeclared] at defines
    exact List.not_mem_nil defines

namespace MutualRecursion

/-- Two relations that depend on each other, one of them also on a third; a fourth reads both. -/
def program : Program :=
  ⟨[⟨⟨["edge"]⟩, []⟩, ⟨⟨["odd"]⟩, []⟩, ⟨⟨["even"]⟩, []⟩, ⟨⟨["far"]⟩, []⟩],
    [⟨.propositional "odd", [.atom (.propositional "even"), .atom (.propositional "edge")]⟩,
      ⟨.propositional "even", [.atom (.propositional "odd")]⟩,
      ⟨.propositional "far", [.negation (.propositional "even"), .atom (.propositional "odd")]⟩]⟩

def precedence : Precedence :=
  Precedence.build program program.resolver

theorem exists_strata : ∃ s, precedence.stratify = .ok s ∧
    s.strata[1]? = some ⟨⟨1⟩, [⟨1⟩, ⟨2⟩], true, [⟨0⟩], [⟨1⟩, ⟨2⟩]⟩ :=
  -- This computes with equations of `List.lookup`, `LE.le` and `Prod.snd`, for which Mathlib is
  -- imported here.
  ⟨⟨precedence, Decomposition.ofGraph precedence.graph,
    precedence.layers (Decomposition.ofGraph precedence.graph)⟩, by cbv, by cbv⟩

/-- What is read from outside is entered with, and has its place before. -/
theorem edge_entered : ∃ s stratum, precedence.stratify = .ok s ∧
    s.strata[1]? = some stratum ∧ ⟨0⟩ ∈ stratum.enter ∧
      ∃ earlier, s.place? ⟨0⟩ = some earlier ∧ earlier < 1 := by
  obtain ⟨s, accepted, found⟩ := exists_strata
  obtain ⟨-, entered, before, -⟩ :=
    enter_complete_and_sound program program.resolver accepted found
  have edge : precedence.graph.HasEdge ⟨0⟩ ⟨1⟩ := ⟨.positive, by decide⟩
  have inside := (entered ⟨0⟩).mpr ⟨by decide, ⟨1⟩, List.mem_cons_self, edge⟩
  exact ⟨s, _, accepted, found, inside, before ⟨0⟩ inside⟩

end MutualRecursion

/-- A recursive stratum of an accepted program iterates over all of its relations, which are the
members of its component in declaration order. A stratum that is not recursive iterates over
none. -/
theorem iterates_over_all_or_nothing (program : Program) (resolver : Resolver)
    {stratification : Stratification} {place : Nat} {stratum : Stratum}
    (accepted : (Precedence.build program resolver).stratify = .ok stratification)
    (found : stratification.strata[place]? = some stratum) :
    (∃ component, stratification.decomposition.component? stratum.component = some component ∧
      stratum.relations = component.members.toList ∧ stratum.recursive = component.recursive) ∧
    Ascending stratum.relations ∧
    (stratum.recursive = true → stratum.iterative = stratum.relations) ∧
    (stratum.recursive = false → stratum.iterative = []) := by
  have wellFormed := Precedence.wellFormed_build program resolver
  have iterated {u : RelationId} : u ∈ stratum.iterative ↔
      u ∈ stratum.relations ∧ stratum.recursive = true := by
    rw [Precedence.mem_iterative_iff_closedWalk wellFormed accepted found]
    exact and_congr_right fun own =>
      Precedence.closedWalk_iff_recursive wellFormed accepted found own
  have ascending : Ascending stratum.relations :=
    (Precedence.isLayering_of_eq_ok wellFormed accepted).ascending _
      (List.mem_of_getElem? (Precedence.getElem?_relations found))
  refine ⟨?_, ascending, ?_, ?_⟩
  · obtain ⟨id, component, isComponent, rfl⟩ :=
      Precedence.stratum_of_eq_ok wellFormed accepted found
    obtain ⟨-, rfl⟩ := (Precedence.eq_ok_iff wellFormed).mp accepted
    exact ⟨component, isComponent, rfl, rfl⟩
  · intro recursive
    -- Two ascending lists with the same members are equal.
    apply (Precedence.iterative_ascending wellFormed accepted found).eq_of_mem_iff ascending
    intro u
    rw [iterated, and_iff_left recursive]
  · intro notRecursive
    refine List.eq_nil_iff_forall_not_mem.mpr fun u inside => ?_
    have recursive := (iterated.mp inside).2
    exact absurd (notRecursive.symm.trans recursive) Bool.false_ne_true

namespace MutualRecursion

/-- Two relations that depend on each other are both iterated over, though neither depends on
itself. -/
theorem both_iterated : ∃ s stratum, precedence.stratify = .ok s ∧
    s.strata[1]? = some stratum ∧ stratum.recursive = true ∧
      stratum.iterative = [⟨1⟩, ⟨2⟩] := by
  obtain ⟨s, accepted, found⟩ := exists_strata
  obtain ⟨-, -, all, -⟩ :=
    iterates_over_all_or_nothing program program.resolver accepted found
  exact ⟨s, _, accepted, found, rfl, all rfl⟩

end MutualRecursion

end DatalogStrata
