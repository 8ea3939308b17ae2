import DatalogStrata.Precedence
import DatalogStrata.Stratum.Order

/-!
# Stratification

A program is evaluated in strata, one for each component of its precedence graph, in an order in
which each stratum comes after all that it depends on. There is no such order when a negative
dependency lies on a cycle; the program is then rejected.

A stratum reads two kinds of relations: those of earlier strata, which it enters with, and, when
it is recursive, its own, which it iterates over.

## Main definitions

* `NegationCycle`, `Rejection` — why a program is rejected
* `Stratum`, `Stratification` — the strata of a program
* `Precedence.stratify` — the strata of a program, or its rejection
* `Stratification.text` — the strata, line by line
-/

namespace DatalogStrata

/-- A component with negation inside. -/
structure NegationCycle where
  /-- The relations of the component in declaration order. -/
  relations : List Name
  /-- The negative edges inside, as pairs of source and target. -/
  edges : List (Name × Name)
deriving DecidableEq

/-- The message for a negation cycle; an edge is told as a clause of its target. -/
def NegationCycle.message (cycle : NegationCycle) : String :=
  let negations := cycle.edges.map fun edge => edge.2.text ++ " :- !" ++ edge.1.text
  "Stratification error: negation through recursion in \x7b" ++
    commaSeparated (cycle.relations.map Name.text) ++ "\x7d (negated: " ++
    commaSeparated negations ++ ")"

/-- Why a program has no strata: the cycle that is reported, and all others. -/
structure Rejection where
  cycle : NegationCycle
  others : List NegationCycle
deriving DecidableEq

/-- A layer of the evaluation: one component. -/
structure Stratum where
  component : ComponentId
  /-- The relations of the component in declaration order. -/
  relations : List RelationId
  /-- Whether the stratum is iterated until nothing changes. -/
  recursive : Bool
  /-- The relations of earlier strata that are read. -/
  enter : List RelationId
  /-- The relations of the stratum itself that are read. -/
  iterative : List RelationId
deriving DecidableEq, Repr

/-- The strata of a program in the order of evaluation. -/
structure Stratification where
  precedence : Precedence
  decomposition : Decomposition
  strata : List Stratum

namespace Precedence

/-- The name of a vertex; the short form of an undeclared one is read as a name. -/
def nameOf (precedence : Precedence) (relation : RelationId) : Name :=
  (precedence.name? relation).getD (Name.parse relation.text)

/-- A component as a negation cycle. -/
def cycleOf (precedence : Precedence) (component : Component) : NegationCycle where
  relations := component.members.toList.map precedence.nameOf
  edges := component.negativeEdges.map fun edge =>
    (precedence.nameOf edge.1, precedence.nameOf edge.2)

/-- The recursive components with negation inside, the earliest declared first. -/
def unsafeComponents (decomposition : Decomposition) : List Component :=
  let found := decomposition.components.toList.filter fun component =>
    component.recursive && !component.negativeEdges.isEmpty
  found.mergeSort fun a b => decide (a.firstDeclared ≤ b.firstDeclared)

/-- All negation cycles, the earliest declared first. -/
def negationCycles (precedence : Precedence) (decomposition : Decomposition) :
    List NegationCycle :=
  (unsafeComponents decomposition).map precedence.cycleOf

end Precedence

/-- The relations in declaration order, each once. -/
def distinct (relations : List RelationId) : List RelationId :=
  (RelationId.sort relations).eraseReps

namespace Stratum

/-- A component as a stratum, before it is known what it reads. -/
def ofComponent (id : ComponentId) (component : Component) : Stratum where
  component := id
  relations := component.members.toList
  recursive := component.recursive
  enter := []
  iterative := []

/-- Note what a stratum at a given place reads, where a relation's stratum is known by place. -/
def withReads (graph : Graph RelationId) (placeOf? : RelationId → Option Nat) (place : Nat)
    (stratum : Stratum) : Stratum :=
  let read := stratum.relations.flatMap graph.predecessors
  { stratum with
    enter := distinct (read.filter fun relation => (placeOf? relation).any (· < place))
    iterative := distinct (read.filter fun relation => placeOf? relation = some place) }

end Stratum

/-- The place of the stratum that holds a relation. -/
def stratumPlace? (strata : List Stratum) (relation : RelationId) : Option Nat :=
  strata.findIdx? fun stratum => relation ∈ stratum.relations

namespace Precedence

/-- The strata of a graph, when nothing stands against them. -/
def layers (precedence : Precedence) (decomposition : Decomposition) : List Stratum :=
  -- What a stratum reads is known only once every relation has its place.
  let plain := decomposition.evaluationOrder.filterMap fun id =>
    (decomposition.component? id).map (Stratum.ofComponent id)
  plain.mapIdx (Stratum.withReads precedence.graph (stratumPlace? plain))

/-- Stratify a program by its precedence graph. -/
def stratify (precedence : Precedence) : Except Rejection Stratification :=
  let decomposition := Decomposition.ofGraph precedence.graph
  match precedence.negationCycles decomposition with
  | cycle :: others => .error ⟨cycle, others⟩
  | [] => .ok ⟨precedence, decomposition, precedence.layers decomposition⟩

end Precedence

namespace Stratification

/-- The place of the stratum that holds a relation. -/
def place? (stratification : Stratification) (relation : RelationId) : Option Nat :=
  stratumPlace? stratification.strata relation

/-- For each stratum whether it is recursive. -/
def recursionFlags (stratification : Stratification) : List Bool :=
  stratification.strata.map Stratum.recursive

/-- Whether the stratum at a place is recursive; there is none past the end. -/
def isRecursiveAt (stratification : Stratification) (place : Nat) : Bool :=
  (stratification.strata[place]?.map Stratum.recursive).getD false

/-- How many strata are recursive. -/
def recursiveCount (stratification : Stratification) : Nat :=
  stratification.strata.countP Stratum.recursive

/-- How many relations the strata hold. -/
def relationCount (stratification : Stratification) : Nat :=
  (stratification.strata.flatMap Stratum.relations).length

/-- Relations as they are called. -/
def displayNames (stratification : Stratification) (relations : List RelationId) : List String :=
  relations.map stratification.precedence.displayName

/-- The strata by the names of their relations. -/
def names (stratification : Stratification) : List (List String) :=
  stratification.strata.map fun stratum => stratification.displayNames stratum.relations

/-- Whether some stratum depends on another one through a negation. -/
def hasNegation (stratification : Stratification) : Bool :=
  stratification.decomposition.condensation.edges.any fun edge => edge.polarity.isNegative

/-- The lines about one stratum: its relations, what it enters with, what it iterates over. -/
def stratumText (stratification : Stratification) (place : Nat) (stratum : Stratum) : String :=
  let names (relations : List RelationId) : String :=
    "[" ++ commaSeparated (stratification.displayNames relations) ++ "]"
  let kind := if stratum.recursive then "[recursive]" else "[non-recursive]"
  line ("#" ++ toString (place + 1) ++ " " ++ kind ++ " " ++ names stratum.relations) ++
    line ("  enter:     " ++ names stratum.enter) ++
    if stratum.recursive then line ("  iterative: " ++ names stratum.iterative) else ""

/-- The strata under a title. -/
def text (stratification : Stratification) : String :=
  line "" ++ line "Stratum:" ++ line Program.titleRule ++
    concat (stratification.strata.mapIdx stratification.stratumText)

/-- The strata and the recursive ones among them, counted. -/
def counts (stratification : Stratification) : String :=
  toString stratification.strata.length ++ " strata, " ++
    toString stratification.recursiveCount ++ " recursive"

end Stratification

end DatalogStrata
