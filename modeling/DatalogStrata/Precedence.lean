import DatalogStrata.Clause.Occurrence
import DatalogStrata.Graph.Basic
import DatalogStrata.Program.Resolver

/-!
# The precedence graph

An edge leads from one relation to another when the definition of the second depends on the first:
when some clause of the second mentions the first in its body, or inside an aggregate or another
term in its head. The edge is negative when one of these occurrences is negated in the body.

Relations and their clauses are visited in declaration order. A name that the resolver does not
know adds no edge and is noted.

## Main definitions

* `Precedence` — a program with its dependency graph
* `Precedence.build`, `Program.precedence` — the graph for a resolver, and for the usual one
* `Precedence.displayName` — how a vertex is called
* `Precedence.text` — what each relation depends on, line by line
-/

namespace DatalogStrata

/-- An occurrence whose name means no relation. -/
structure Unresolved where
  name : Name
  clause : Clause
deriving DecidableEq

/-- The note about an unresolved occurrence. -/
def Unresolved.message (unresolved : Unresolved) : String :=
  "Skipping unresolved atom '" ++ unresolved.name.text ++ "' in `" ++ unresolved.clause.text ++ "`"

/-- A program with the graph of dependencies between its relations. -/
structure Precedence where
  program : Program
  graph : Graph RelationId
  /-- The occurrences that were left out, in the order of the walk. -/
  unresolved : List Unresolved

namespace Clause

/-- What a clause mentions: the body with its signs, then the head, where nothing is negated. -/
def mentions (clause : Clause) : List (Name × Polarity) :=
  clause.bodyOccurrences.map (fun o => (o.atom.name, Polarity.ofNegated o.negated)) ++
    clause.headAtoms.map fun atom => (atom.name, Polarity.positive)

end Clause

namespace Precedence

/-- A program before its clauses are looked at. -/
def start (program : Program) : Precedence :=
  ⟨program, Graph.empty, []⟩

/-- Add the dependency of a relation on what a clause of it mentions. -/
def addMention (resolver : Resolver) (relation : RelationId) (clause : Clause)
    (precedence : Precedence) (mention : Name × Polarity) : Precedence :=
  match resolver.relation? mention.1 with
  | some dependency =>
    { precedence with graph := precedence.graph.insertEdge ⟨dependency, relation, mention.2⟩ }
  | none =>
    { precedence with unresolved := precedence.unresolved ++ [⟨mention.1, clause⟩] }

/-- Add the dependencies that a clause of a relation makes. -/
def addClause (resolver : Resolver) (relation : RelationId) (precedence : Precedence)
    (clause : Clause) : Precedence :=
  clause.mentions.foldl (addMention resolver relation clause) precedence

/-- Add a relation and the dependencies that its clauses make. -/
def addRelation (resolver : Resolver) (precedence : Precedence) (relation : RelationId) :
    Precedence :=
  (resolver.clauses relation).foldl (addClause resolver relation)
    { precedence with graph := precedence.graph.insert (.vertex relation) }

/-- The dependencies of a program as a resolver sees it. -/
def build (program : Program) (resolver : Resolver) : Precedence :=
  program.relationIds.foldl (addRelation resolver) (start program)

/-- The name of a vertex, if it is declared. -/
def name? (precedence : Precedence) (relation : RelationId) : Option Name :=
  (precedence.program.declaration? relation).map Declaration.name

/-- The name of a vertex as text; an undeclared one goes by its short form. -/
def displayName (precedence : Precedence) (relation : RelationId) : String :=
  match precedence.name? relation with
  | some name => name.text
  | none => relation.text

/-- What a relation depends on, with a mark before what it negates. -/
def dependencyTexts (precedence : Precedence) (relation : RelationId) : List String :=
  (precedence.graph.predecessors relation).map fun dependency =>
    let mark :=
      if precedence.graph.polarity? dependency relation = some .negative then "!" else ""
    mark ++ precedence.displayName dependency

/-- One line for each relation, telling what it depends on. -/
def text (precedence : Precedence) : String :=
  let entry (relation : RelationId) : String :=
    precedence.displayName relation ++ " <- [" ++
      commaSeparated (precedence.dependencyTexts relation) ++ "]"
  line "" ++ line "Precedence Graph:" ++ line Program.titleRule ++
    concat (precedence.graph.vertices.toList.map fun relation => line (entry relation))

end Precedence

/-- The dependencies of a program. -/
def Program.precedence (program : Program) : Precedence :=
  Precedence.build program program.resolver

end DatalogStrata
