import DatalogStrata.Stratum.Basic

/-!
# Filling the table of places

The strata of a graph are built one after another, in the order of evaluation. Meanwhile each
relation is entered in a table with the place of its stratum, and once the table is full it is told
by it what each stratum reads. Every component in the order must be there.

## Main definitions

* `Filling`, `Filling.add` — strata and places while they are built, and one more stratum
* `Precedence.fill?` — the strata of a graph with the full table
-/

namespace DatalogStrata

/-- The strata that have been built and the places of their relations. -/
structure Filling where
  strata : List Stratum
  /-- The table of places. An entry stands in front of the earlier ones. -/
  places : List (RelationId × Nat)
deriving DecidableEq, Repr

namespace Filling

/-- Before anything is built. -/
def empty : Filling :=
  ⟨[], []⟩

/-- Build the stratum of a component behind the others, and enter its relations. -/
def add (filling : Filling) (id : ComponentId) (component : Component) : Filling where
  strata := filling.strata ++ [Stratum.ofComponent id component]
  places := component.members.toList.foldl
    (fun places relation => (relation, filling.strata.length) :: places) filling.places

/-- Build the stratum of the component with a given number, which must be there. -/
def add? (decomposition : Decomposition) (filling : Filling) (id : ComponentId) :
    Option Filling :=
  (decomposition.component? id).map (filling.add id)

end Filling

namespace Precedence

/-- The strata of a graph, with what they read by the full table of places. -/
def fill? (precedence : Precedence) (decomposition : Decomposition) : Option Filling := do
  let filling ← decomposition.evaluationOrder.foldlM (Filling.add? decomposition) Filling.empty
  let placeOf? (relation : RelationId) : Option Nat := filling.places.lookup relation
  return { filling with
    strata := filling.strata.mapIdx (Stratum.withReads precedence.graph placeOf?) }

end Precedence

end DatalogStrata
