import DatalogStrata.Program.Resolver
import Mathlib.Data.List.Basic

/-!
# The tables of a program

The index of a program is built clause by clause. A name keeps its meaning all the while, and a
clause is put into the bucket of the relation that the name of its head means. So the clauses of a
relation are those of the program that define it, in source order.

## Main results

* `ClauseIndex.clauses_foldl_insert` — what a run of insertions adds to a bucket
* `Program.name_of_relation?` — the relation that a name means has that name
* `Program.resolver_clauses` — the clauses of a relation, as a part of the program
-/

namespace DatalogStrata

namespace ClauseIndex

variable {index : ClauseIndex} {clause : Clause} {id : RelationId}

/-- Every relation that a name means has a bucket. -/
def Covers (index : ClauseIndex) : Prop :=
  ∀ name id, index.relation? name = some id → id.index < index.buckets.size

@[simp] theorem relation?_insert (index : ClauseIndex) (clause : Clause) :
    (index.insert clause).relation? = index.relation? := by
  unfold insert
  split <;> rfl

@[simp] theorem size_buckets_insert (index : ClauseIndex) (clause : Clause) :
    (index.insert clause).buckets.size = index.buckets.size := by
  unfold insert
  split <;> simp

theorem Covers.insert (covers : index.Covers) (clause : Clause) : (index.insert clause).Covers := by
  intro name id found
  rw [relation?_insert] at found
  rw [size_buckets_insert]
  exact covers name id found

/-- A clause is added to the bucket of the relation that it defines. -/
theorem clauses_insert (covers : index.Covers) (clause : Clause) (id : RelationId) :
    (index.insert clause).clauses id =
      index.clauses id ++ if index.relation? clause.head.name = some id then [clause] else [] := by
  unfold insert
  cases found : index.relation? clause.head.name with
  | none => simp
  | some defined =>
    have bound := covers _ _ found
    by_cases same : defined = id
    · subst same
      simp [clauses, bound, Array.getElem_modify]
    · have other : defined.index ≠ id.index := by
        intro equal
        cases defined
        cases id
        exact same (congrArg RelationId.mk equal)
      simp [clauses, Array.getElem?_modify, other, same]

/-- A run of insertions adds to each bucket the clauses that define its relation. -/
theorem clauses_foldl_insert (program : List Clause) (id : RelationId) :
    ∀ index : ClauseIndex, index.Covers → (program.foldl insert index).clauses id =
      index.clauses id ++
        program.filter fun clause => decide (index.relation? clause.head.name = some id) := by
  induction program with
  | nil => simp
  | cons clause rest ih =>
    intro index covers
    rw [List.foldl_cons, ih _ (covers.insert clause), clauses_insert covers, relation?_insert,
      List.filter_cons, List.append_assoc]
    by_cases defines : index.relation? clause.head.name = some id <;> simp [defines]

theorem relation?_foldl_insert (program : List Clause) :
    ∀ index : ClauseIndex, (program.foldl insert index).relation? = index.relation? := by
  induction program with
  | nil => exact fun _ => rfl
  | cons clause rest ih =>
    intro index
    rw [List.foldl_cons, ih, relation?_insert]

end ClauseIndex

namespace Program

/-- The tables before any clause is put into them. -/
def emptyIndex (program : Program) : ClauseIndex :=
  ⟨((program.declarations.map Declaration.name).zip program.relationIds).reverse,
    Array.replicate program.declarations.length #[]⟩

theorem index_eq (program : Program) :
    program.index = program.clauses.foldl ClauseIndex.insert program.emptyIndex := rfl

theorem covers_emptyIndex (program : Program) : program.emptyIndex.Covers := by
  intro name id found
  obtain ⟨entry, named, rfl⟩ := Option.map_eq_some_iff.mp found
  have listed := List.mem_of_find?_eq_some named
  rw [emptyIndex, List.mem_reverse] at listed
  have declared := (List.of_mem_zip (b := entry.2) listed).2
  simp only [relationIds, List.mem_map, List.mem_range] at declared
  obtain ⟨place, bound, same⟩ := declared
  simpa [emptyIndex, ← same] using bound

theorem mem_relationIds_iff {program : Program} {id : RelationId} :
    id ∈ program.relationIds ↔ id.index < program.declarations.length := by
  simp only [relationIds, List.mem_map, List.mem_range]
  constructor
  · rintro ⟨place, bound, rfl⟩
    exact bound
  · exact fun bound => ⟨id.index, bound, rfl⟩

/-- What a name means depends on the declarations alone. -/
theorem resolver_relation? (program : Program) :
    program.resolver.relation? = program.emptyIndex.relation? := by
  change program.index.relation? = _
  rw [index_eq, ClauseIndex.relation?_foldl_insert]

/-- A name means a declared relation, if any. -/
theorem declared_of_relation? {program : Program} {name : Name} {id : RelationId}
    (found : program.resolver.relation? name = some id) : id ∈ program.relationIds := by
  rw [resolver_relation?] at found
  have bound := covers_emptyIndex program name id found
  rw [emptyIndex, Array.size_replicate] at bound
  exact mem_relationIds_iff.mpr bound

/-- What a name means is declared under that name. -/
theorem name_of_relation? {program : Program} {name : Name} {id : RelationId}
    (found : program.resolver.relation? name = some id) :
    (program.declaration? id).map Declaration.name = some name := by
  rw [resolver_relation?] at found
  obtain ⟨entry, named, rfl⟩ := Option.map_eq_some_iff.mp found
  have same : entry.1 = name := by simpa using List.find?_some named
  have listed := List.mem_of_find?_eq_some named
  rw [emptyIndex, List.mem_reverse] at listed
  -- An entry pairs the name and the number of one declaration.
  obtain ⟨place, placed⟩ := List.mem_iff_getElem?.mp listed
  obtain ⟨atName, atId⟩ := List.getElem?_zip_eq_some.mp placed
  have number : entry.2.index = place := by
    rw [relationIds, List.getElem?_map, Option.map_eq_some_iff] at atId
    obtain ⟨index, atIndex, numbered⟩ := atId
    rw [← numbered]
    exact (List.getElem?_eq_some_iff.mp atIndex).2 ▸ (List.getElem_range _)
  rw [declaration?, number, ← List.getElem?_map, atName, same]

/-- The clauses of a relation are those that define it, in source order. -/
theorem resolver_clauses (program : Program) (id : RelationId) :
    program.resolver.clauses id = program.clauses.filter fun clause =>
      decide (program.resolver.relation? clause.head.name = some id) := by
  change program.index.clauses id = _
  rw [index_eq, ClauseIndex.clauses_foldl_insert _ _ _ program.covers_emptyIndex,
    resolver_relation?]
  have nothing : program.emptyIndex.clauses id = [] := by
    unfold ClauseIndex.clauses emptyIndex
    rw [Array.getElem?_replicate]
    split <;> rfl
  rw [nothing, List.nil_append]

/-- Programs with the same declarations read names alike. -/
theorem resolver_relation?_congr {program other : Program}
    (declared : program.declarations = other.declarations) :
    program.resolver.relation? = other.resolver.relation? := by
  rw [resolver_relation?, resolver_relation?, emptyIndex, emptyIndex, relationIds, relationIds,
    declared]

end Program

end DatalogStrata
