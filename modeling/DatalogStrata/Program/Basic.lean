import DatalogStrata.Clause.Equality
import DatalogStrata.Clause.Text
import DatalogStrata.Declaration

/-!
# Programs

A program is a list of declarations and a list of clauses, both in source order. A program is
valid when no relation is declared twice and every clause defines a declared relation; names in
bodies may be undeclared.

## Main definitions

* `Program` — declarations and clauses
* `Program.text` — the program as text
* `Fault`, `Program.validate` — the first fault of a program that is not valid
-/

namespace DatalogStrata

/-- Declarations and clauses in source order. -/
structure Program where
  declarations : List Declaration
  clauses : List Clause
deriving DecidableEq

namespace Program

/-- The declaration that a reference points at. -/
def declaration? (program : Program) (id : RelationId) : Option Declaration :=
  program.declarations[id.index]?

/-- The references to all declarations, in order. -/
def relationIds (program : Program) : List RelationId :=
  (List.range program.declarations.length).map RelationId.mk

/-- The line below a title of a listing. -/
def titleRule : String :=
  rule 45 '-'

/-- The declarations and the clauses, each under a title; an empty part has none. -/
def text (program : Program) : String :=
  let declarations :=
    if program.declarations.isEmpty then ""
    else line "Relations" ++ line titleRule ++
      concat (program.declarations.map fun d => line d.text) ++ line ""
  let clauses :=
    if program.clauses.isEmpty then ""
    else line "Clauses" ++ line titleRule ++ concat (program.clauses.map fun c => line c.text)
  declarations ++ clauses

end Program

/-- Why a program is not valid. -/
inductive Fault where
  | duplicateRelation (name : Name)
  /-- The clause defines a relation that is not declared. -/
  | undeclaredHead (clause : Clause)
deriving DecidableEq

namespace Fault

/-- The message for a fault. -/
def message : Fault → String
  | duplicateRelation name =>
    "Program error: relation '" ++ name.text ++ "' is declared more than once"
  | undeclaredHead clause =>
    "Program error: clause `" ++ clause.text ++ "` defines undeclared relation '" ++
      clause.head.name.text ++ "'"

end Fault

/-- The first name that is among the names seen before it. -/
def firstRepeat? (seen : List Name) : List Name → Option Name
  | [] => none
  | name :: rest => if name ∈ seen then some name else firstRepeat? (name :: seen) rest

namespace Program

/-- The first fault: all declarations are looked at before any clause. -/
def fault? (program : Program) : Option Fault :=
  let names := program.declarations.map Declaration.name
  match firstRepeat? [] names with
  | some name => some (.duplicateRelation name)
  | none => (program.clauses.find? fun clause => clause.head.name ∉ names).map .undeclaredHead

/-- Accept a program without fault. -/
def validate (program : Program) : Except Fault Unit :=
  match program.fault? with
  | some fault => .error fault
  | none => .ok ()

end Program

end DatalogStrata
