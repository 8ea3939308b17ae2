import DatalogStrata.Program.Basic

/-!
# Resolving names

The analysis looks relations up through a resolver: which relation a name means, and which clauses
define a relation. The usual resolver comes from an index of the program, built in one pass; other
resolvers may resolve names to relations that are not declared.

## Main definitions

* `Resolver` — name to relation, relation to clauses
* `ClauseIndex`, `Program.index` — the tables of a program
* `ClauseIndex.resolver` — the resolver that reads these tables
* `Resolver.ofTables` — a resolver from hand-made tables
-/

namespace DatalogStrata

/-- How an analysis resolves names and finds the clauses of a relation. -/
structure Resolver where
  /-- The relation that a name means. -/
  relation? : Name → Option RelationId
  /-- The clauses that define a relation, in source order. -/
  clauses : RelationId → List Clause

/-- The tables of a program. -/
structure ClauseIndex where
  /-- Declared names, the latest first, so that the last declaration of a name counts. -/
  ids : List (Name × RelationId)
  /-- For each declaration the clauses of its relation. -/
  buckets : Array (Array Clause)

namespace ClauseIndex

/-- The last declaration of a name. -/
def relation? (index : ClauseIndex) (name : Name) : Option RelationId :=
  (index.ids.find? fun entry => entry.1 = name).map Prod.snd

/-- The clauses of a relation; none for a relation that is not declared. -/
def clauses (index : ClauseIndex) (id : RelationId) : List Clause :=
  (index.buckets[id.index]?.getD #[]).toList

/-- Put a clause into the bucket of the relation it defines; without one it is left out. -/
def insert (index : ClauseIndex) (clause : Clause) : ClauseIndex :=
  match index.relation? clause.head.name with
  | some id => { index with buckets := index.buckets.modify id.index (·.push clause) }
  | none => index

/-- The resolver that reads the tables. -/
def resolver (index : ClauseIndex) : Resolver :=
  ⟨index.relation?, index.clauses⟩

end ClauseIndex

namespace Program

/-- The tables of a program. -/
def index (program : Program) : ClauseIndex :=
  let names := program.declarations.map Declaration.name
  -- The latest declaration stands first, where the search for a name begins.
  let empty : ClauseIndex :=
    ⟨(names.zip program.relationIds).reverse, Array.replicate program.declarations.length #[]⟩
  program.clauses.foldl ClauseIndex.insert empty

/-- The resolver of a program. -/
def resolver (program : Program) : Resolver :=
  program.index.resolver

end Program

namespace Resolver

/-- A resolver from hand-made tables; of several entries for one key the last counts. -/
def ofTables (ids : List (Name × RelationId)) (clauses : List (RelationId × List Clause)) :
    Resolver where
  relation? name := (ids.reverse.find? fun entry => entry.1 = name).map Prod.snd
  clauses id := ((clauses.reverse.find? fun entry => entry.1 = id).map Prod.snd).getD []

end Resolver

end DatalogStrata
