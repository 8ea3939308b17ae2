import DatalogStrata.Proofs.Graph.Listing
import Mathlib.Logic.Relation

/-!
# Reachability

What a vertex reaches along edges, in zero or more steps, is said of labels and of positions. The
search works on positions; everything after it speaks of labels.

## Main definitions

* `Graph.Reaches` — reachability between labels
* `Graph.ReachesAt` — reachability between positions

## Main results

* `Graph.WellFormed.reaches_iff_reachesAt` — the two agree
-/

namespace DatalogStrata

namespace Graph

variable {V : Type} {graph : Graph V}

/-- A vertex reaches another along edges, in zero or more steps. -/
def Reaches (graph : Graph V) : V → V → Prop :=
  Relation.ReflTransGen graph.HasEdge

/-- A position reaches another along edges, in zero or more steps. -/
def ReachesAt (graph : Graph V) : Nat → Nat → Prop :=
  Relation.ReflTransGen fun source target => target ∈ graph.targets source

theorem mem_vertices_of_reaches {u v : V} (vertex : u ∈ graph.vertices)
    (reach : graph.Reaches u v) : v ∈ graph.vertices := by
  cases reach with
  | refl => exact vertex
  | tail _ edge => exact (mem_vertices_of_hasEdge edge).2

variable [DecidableEq V] {u v : V} {source target : Nat}

theorem WellFormed.reaches_of_reachesAt (wellFormed : graph.WellFormed)
    (atSource : graph.vertices[source]? = some u) (reach : graph.ReachesAt source target) :
    ∀ {v}, graph.vertices[target]? = some v → graph.Reaches u v := by
  induction reach with
  | refl =>
    intro v atTarget
    obtain rfl := Option.some_inj.mp (atSource.symm.trans atTarget)
    exact .refl
  | tail _ leads ih =>
    intro v atTarget
    -- A position that an edge leaves holds a label.
    have atMiddle := Array.getElem?_eq_getElem (wellFormed.source_lt leads)
    exact (ih atMiddle).tail
      (wellFormed.hasEdge_iff_targets.mpr ⟨_, _, atMiddle, atTarget, leads⟩)

theorem WellFormed.reachesAt_of_reaches (wellFormed : graph.WellFormed)
    (atSource : graph.vertices[source]? = some u) (reach : graph.Reaches u v) :
    ∃ target : Nat, graph.vertices[target]? = some v ∧ graph.ReachesAt source target := by
  induction reach with
  | refl => exact ⟨source, atSource, .refl⟩
  | tail _ edge ih =>
    obtain ⟨middle, atMiddle, reach⟩ := ih
    obtain ⟨other, target, atOther, atTarget, leads⟩ := wellFormed.hasEdge_iff_targets.mp edge
    obtain rfl := wellFormed.position_unique atMiddle atOther
    exact ⟨target, atTarget, reach.tail leads⟩

/-- Labels reach each other as their positions do. -/
theorem WellFormed.reaches_iff_reachesAt (wellFormed : graph.WellFormed)
    (atSource : graph.vertices[source]? = some u) (atTarget : graph.vertices[target]? = some v) :
    graph.Reaches u v ↔ graph.ReachesAt source target := by
  constructor
  · intro reach
    obtain ⟨other, atOther, reachAt⟩ := wellFormed.reachesAt_of_reaches atSource reach
    obtain rfl := wellFormed.position_unique atOther atTarget
    exact reachAt
  · exact fun reach => wellFormed.reaches_of_reachesAt atSource reach atTarget

end Graph

end DatalogStrata
