import DatalogStrata.Proofs.Dependency
import DatalogStrata.Proofs.Precedence.Neighbours
import DatalogStrata.Proofs.Program.Validity
import DatalogStrata.Proofs.Traversal
import Mathlib.Data.List.Perm.Basic

/-!
# Clauses in their buckets

The index of a program reads a name as the last relation that is declared under it, and has one
bucket for each declaration. A clause is put into the bucket of the relation that the name of its
head is read as, so it is in one bucket or, where that name is not declared, in none. An earlier
declaration of a name has an empty bucket. In a valid program there is no such declaration, and the
buckets hold all clauses.

## Main definitions

* `Program.Declares` — the declaration at a place bears a name
* `ClauseIndex.insert?`, `Program.index?` — the tables of a program, with every bucket checked

## Main results

* `ClauseIndex.Covers.foldlM_insert?` — no bucket is missing
* `Program.index_relation?_eq_some_iff` — a name is read as its last declaration
* `Program.perm_buckets` — the buckets together hold the clauses whose heads are declared
* `Program.index_keeps_every_clause` — what the index of a program holds
-/

namespace DatalogStrata

/-- What is collected key by key, for different keys, is what has one of the keys. -/
theorem perm_flatMap_filter {α κ : Type} [DecidableEq κ] {keys : List κ} (distinct : keys.Nodup)
    (key? : α → Option κ) (items : List α) :
    (keys.flatMap fun key => items.filter fun item => decide (key? item = some key)).Perm
      (items.filter fun item => decide (∃ key ∈ keys, key? item = some key)) := by
  induction items with
  | nil => simp
  | cons item rest ih =>
    -- The first item is in the collection of its own key only.
    have apart : (keys.flatMap fun key => (item :: rest).filter fun item =>
        decide (key? item = some key)) = keys.flatMap fun key =>
          (if key? item = some key then [item] else []) ++
            rest.filter fun item => decide (key? item = some key) := by
      congr 1
      funext key
      by_cases own : key? item = some key <;> simp [own]
    have first : (keys.flatMap fun key => if key? item = some key then [item] else []) =
        if ∃ key ∈ keys, key? item = some key then [item] else [] := by
      split
      · next found =>
        obtain ⟨key, listed, own⟩ := found
        simpa [own, eq_comm] using flatMap_ite_eq distinct listed fun _ => [item]
      · next missing =>
        refine List.flatMap_eq_nil_iff.mpr fun key listed => if_neg fun own => ?_
        exact missing ⟨key, listed, own⟩
    have together := (List.flatMap_append_perm keys
      (fun key => if key? item = some key then [item] else [])
      (fun key => rest.filter fun item => decide (key? item = some key))).symm
    rw [apart]
    refine together.trans ?_
    rw [first, List.filter_cons]
    by_cases found : ∃ key ∈ keys, key? item = some key
    · simpa [found] using ih
    · simpa [found] using ih

namespace ClauseIndex

variable {index : ClauseIndex}

/-- Put a clause into the bucket of the relation it defines, which must be there; without such a
relation it is left out. -/
def insert? (index : ClauseIndex) (clause : Clause) : Option ClauseIndex :=
  match index.relation? clause.head.name with
  | some id => do
    guard (id.index < index.buckets.size)
    return { index with buckets := index.buckets.modify id.index (·.push clause) }
  | none => some index

theorem Covers.insert?_eq (covers : index.Covers) (clause : Clause) :
    index.insert? clause = some (index.insert clause) := by
  unfold insert? ClauseIndex.insert
  cases found : index.relation? clause.head.name with
  | none => rfl
  | some id => exact guard_bind (covers _ _ found) _

/-- No bucket is missing while clauses are put into the tables. -/
theorem Covers.foldlM_insert? (clauses : List Clause) :
    ∀ {index : ClauseIndex}, index.Covers →
      clauses.foldlM insert? index = some (clauses.foldl ClauseIndex.insert index) := by
  induction clauses with
  | nil => exact fun _ => rfl
  | cons clause rest ih =>
    intro index covers
    rw [List.foldlM_cons, covers.insert?_eq]
    exact ih (covers.insert clause)

end ClauseIndex

namespace Program

variable {program : Program} {name : Name} {id : RelationId} {clause : Clause}

/-- The declaration at a place bears the name. -/
def Declares (program : Program) (id : RelationId) (name : Name) : Prop :=
  (program.declaration? id).map Declaration.name = some name

/-- The tables of a program, with every bucket checked. -/
def index? (program : Program) : Option ClauseIndex :=
  program.clauses.foldlM ClauseIndex.insert? program.emptyIndex

theorem index?_eq (program : Program) : program.index? = some program.index :=
  ClauseIndex.Covers.foldlM_insert? program.clauses program.covers_emptyIndex

/-! ## Names -/

theorem Declares.mem (declares : program.Declares id name) : id ∈ program.relationIds := by
  obtain ⟨declaration, placed, -⟩ := Option.map_eq_some_iff.mp declares
  exact mem_relationIds_iff.mpr (List.getElem?_eq_some_iff.mp placed).1

theorem exists_declares_iff :
    (∃ id, program.Declares id name) ↔ name ∈ program.declarations.map Declaration.name := by
  rw [List.mem_iff_getElem?]
  simp only [Declares, declaration?, List.getElem?_map]
  constructor
  · rintro ⟨id, placed⟩
    exact ⟨id.index, placed⟩
  · rintro ⟨place, placed⟩
    exact ⟨⟨place⟩, placed⟩

/-- The entries of the index are the declarations with their names. -/
theorem mem_emptyIndex_ids_iff :
    (name, id) ∈ program.emptyIndex.ids ↔ program.Declares id name := by
  have atPlace (place : Nat) : program.relationIds[place]? = some id ↔
      place = id.index ∧ id ∈ program.relationIds := by
    rw [mem_relationIds_iff, relationIds, List.getElem?_map]
    obtain ⟨index⟩ := id
    simp only [Option.map_eq_some_iff, List.getElem?_eq_some_iff, List.getElem_range,
      List.length_range, RelationId.mk.injEq]
    grind
  rw [emptyIndex, List.mem_reverse, List.mem_iff_getElem?]
  simp only [List.getElem?_zip_eq_some, atPlace, List.getElem?_map]
  constructor
  · rintro ⟨_, named, rfl, -⟩
    exact named
  · exact fun declares => ⟨id.index, declares, rfl, declares.mem⟩

/-- The entries stand from the last declaration to the first. -/
theorem emptyIndex_ids_descending (program : Program) :
    program.emptyIndex.ids.Pairwise fun earlier later => later.2 < earlier.2 := by
  have numbers : ((program.declarations.map Declaration.name).zip program.relationIds).map
      Prod.snd = program.relationIds := by
    rw [List.map_snd_zip]
    simp [relationIds]
  have ascending := program.relationIds_ascending
  rw [← numbers] at ascending
  exact List.pairwise_reverse.mpr (List.pairwise_map.mp ascending)

theorem index_relation? (program : Program) :
    program.index.relation? = program.emptyIndex.relation? :=
  program.resolver_relation?

theorem index_relation?_eq_none_iff :
    program.index.relation? name = none ↔ ∀ id, ¬ program.Declares id name := by
  rw [index_relation?, ClauseIndex.relation?, Option.map_eq_none_iff, List.find?_eq_none]
  constructor
  · intro missing id declares
    simpa using missing _ (mem_emptyIndex_ids_iff.mpr declares)
  · rintro missing ⟨other, id⟩ listed same
    obtain rfl : other = name := of_decide_eq_true same
    exact missing id (mem_emptyIndex_ids_iff.mp listed)

/-- What a name is read as is declared under it, and nothing after it is. -/
theorem last_of_index_relation? (found : program.index.relation? name = some id) :
    program.Declares id name ∧ ∀ other, program.Declares other name → other ≤ id := by
  rw [index_relation?, ClauseIndex.relation?, Option.map_eq_some_iff] at found
  obtain ⟨⟨named, _⟩, first, rfl⟩ := found
  obtain ⟨same, before, after, ids, apart⟩ := List.find?_eq_some_iff_append.mp first
  obtain rfl : named = name := of_decide_eq_true same
  refine ⟨mem_emptyIndex_ids_iff.mp (List.mem_of_find?_eq_some first), fun other declares => ?_⟩
  have descending := program.emptyIndex_ids_descending
  have listed := mem_emptyIndex_ids_iff.mpr declares
  rw [ids] at descending listed
  -- An entry for the same name cannot stand before the first one that is found.
  rcases List.mem_append.mp listed with earlier | later
  · simpa using apart _ earlier
  · rcases List.mem_cons.mp later with itself | later
    · exact (Prod.mk.inj itself).2 ▸ Nat.le_refl _
    · exact Nat.le_of_lt (List.rel_of_pairwise_cons (List.pairwise_append.mp descending).2.1 later)

/-- A name is read as the last relation that is declared under it. -/
theorem index_relation?_eq_some_iff :
    program.index.relation? name = some id ↔
      program.Declares id name ∧ ∀ other, program.Declares other name → other ≤ id := by
  refine ⟨last_of_index_relation?, fun ⟨declares, last⟩ => ?_⟩
  cases found : program.index.relation? name with
  | none => exact absurd declares (index_relation?_eq_none_iff.mp found id)
  | some other =>
    obtain ⟨otherDeclares, otherLast⟩ := last_of_index_relation? found
    have place := Nat.le_antisymm (last other otherDeclares) (otherLast id declares)
    exact congrArg some (congrArg RelationId.mk place)

/-- In a program without fault every declaration is the last of its name. -/
theorem index_relation?_of_valid (valid : program.fault? = none)
    (declares : program.Declares id name) : program.index.relation? name = some id := by
  refine index_relation?_eq_some_iff.mpr ⟨declares, fun other again => Nat.le_of_eq ?_⟩
  have distinct := (fault?_eq_none_iff.mp valid).1
  simp only [Declares, declaration?, ← List.getElem?_map] at declares again
  exact (List.getElem?_inj (List.getElem?_eq_some_iff.mp again).1 distinct).mp
    (again.trans declares.symm)

/-! ## Buckets -/

theorem index_clauses (program : Program) (id : RelationId) :
    program.index.clauses id = program.clauses.filter fun clause =>
      decide (program.index.relation? clause.head.name = some id) :=
  program.resolver_clauses id

theorem mem_index_clauses_iff : clause ∈ program.index.clauses id ↔
    clause ∈ program.clauses ∧ program.index.relation? clause.head.name = some id := by
  rw [index_clauses, List.mem_filter, decide_eq_true_eq]

theorem mem_relationIds_of_index_relation? (found : program.index.relation? name = some id) :
    id ∈ program.relationIds :=
  (last_of_index_relation? found).1.mem

theorem exists_index_relation?_iff :
    (∃ id ∈ program.relationIds, program.index.relation? name = some id) ↔
      name ∈ program.declarations.map Declaration.name := by
  rw [← exists_declares_iff]
  constructor
  · rintro ⟨id, -, found⟩
    exact ⟨id, (last_of_index_relation? found).1⟩
  · rintro ⟨id, declares⟩
    cases found : program.index.relation? name with
    | none => exact absurd declares (index_relation?_eq_none_iff.mp found id)
    | some last => exact ⟨last, mem_relationIds_of_index_relation? found, rfl⟩

/-- The buckets together hold the clauses whose heads are declared, each as often as it stands in
the program. -/
theorem perm_buckets (program : Program) :
    (program.relationIds.flatMap program.index.clauses).Perm
      (program.clauses.filter fun clause =>
        decide (clause.head.name ∈ program.declarations.map Declaration.name)) := by
  have collected := perm_flatMap_filter program.relationIds_ascending.nodup
    (fun clause => program.index.relation? clause.head.name) program.clauses
  simp only [exists_index_relation?_iff, ← index_clauses] at collected
  exact collected

/-- The index of a program is built without missing a bucket. A name is read as the last relation
that is declared under it, and as none where none is declared. The bucket of a relation holds the
clauses of the program whose head is read as that relation, in the order of the program, and there
is no other bucket. So a clause with a declared head is in one bucket and any other clause in none,
and the buckets together hold the clauses with declared heads as often as the program does. In a
valid program these are all clauses, and each relation is what its name is read as. -/
theorem index_keeps_every_clause (program : Program) :
    program.index? = some program.index ∧
    (∀ name id, program.index.relation? name = some id ↔
      program.Declares id name ∧ ∀ other, program.Declares other name → other ≤ id) ∧
    (∀ name, program.index.relation? name = none ↔ ∀ id, ¬ program.Declares id name) ∧
    (∀ id, program.index.clauses id = program.clauses.filter fun clause =>
      decide (program.index.relation? clause.head.name = some id)) ∧
    (∀ id, id ∉ program.relationIds → program.index.clauses id = []) ∧
    (∀ clause ∈ program.clauses,
      ((∃ id, program.Declares id clause.head.name) ↔ ∃! id, clause ∈ program.index.clauses id) ∧
      ((∀ id, ¬ program.Declares id clause.head.name) ↔
        ∀ id, clause ∉ program.index.clauses id)) ∧
    (program.relationIds.flatMap program.index.clauses).Perm
      (program.clauses.filter fun clause =>
        decide (clause.head.name ∈ program.declarations.map Declaration.name)) ∧
    (program.validate = .ok () →
      (program.relationIds.flatMap program.index.clauses).Perm program.clauses ∧
      ∀ id name, program.Declares id name → program.index.relation? name = some id) := by
  refine ⟨program.index?_eq, fun _ _ => index_relation?_eq_some_iff,
    fun _ => index_relation?_eq_none_iff, program.index_clauses, ?_, ?_, program.perm_buckets, ?_⟩
  · intro id undeclared
    refine List.eq_nil_iff_forall_not_mem.mpr fun clause held => undeclared ?_
    exact mem_relationIds_of_index_relation? (mem_index_clauses_iff.mp held).2
  · intro clause listed
    have held (id : RelationId) : clause ∈ program.index.clauses id ↔
        program.index.relation? clause.head.name = some id :=
      mem_index_clauses_iff.trans (and_iff_right listed)
    simp only [held, ← index_relation?_eq_none_iff]
    refine ⟨?_, Option.eq_none_iff_forall_ne_some⟩
    rw [exists_declares_iff, ← exists_index_relation?_iff]
    constructor
    · rintro ⟨id, -, found⟩
      exact ⟨id, found, fun other again => Option.some_inj.mp (again.symm.trans found)⟩
    · rintro ⟨id, found, -⟩
      exact ⟨id, mem_relationIds_of_index_relation? found, found⟩
  · intro accepted
    have valid := validate_eq_ok_iff.mp accepted
    have all : (program.clauses.filter fun clause =>
        decide (clause.head.name ∈ program.declarations.map Declaration.name)) =
          program.clauses :=
      List.filter_eq_self.mpr fun clause listed =>
        decide_eq_true ((fault?_eq_none_iff.mp valid).2 clause listed)
    exact ⟨all ▸ program.perm_buckets, fun _ _ => index_relation?_of_valid valid⟩

end Program

/-! ## A fact that stands twice -/

namespace GroupedClauses

def fact : Clause :=
  ⟨.propositional "b", []⟩

def rule : Clause :=
  ⟨.propositional "a", [.atom (.propositional "b")]⟩

/-- The rule of one relation between two equal facts of another. -/
def program : Program :=
  ⟨[⟨⟨["a"]⟩, []⟩, ⟨⟨["b"]⟩, []⟩], [fact, rule, fact]⟩

/-- Both facts are in the buckets, which are those of two relations. -/
theorem both_facts_kept :
    program.validate = .ok () ∧ fact ∈ program.clauses ∧ program.Declares ⟨1⟩ ⟨["b"]⟩ ∧
      (⟨2⟩ : RelationId) ∉ program.relationIds ∧
      (program.relationIds.flatMap program.index.clauses).Perm [fact, rule, fact] ∧
      program.index.clauses ⟨2⟩ = [] ∧ (∃! id, fact ∈ program.index.clauses id) ∧
      program.index.relation? ⟨["b"]⟩ = some ⟨1⟩ := by
  have accepted : program.validate = .ok () := rfl
  have listed : fact ∈ program.clauses := List.mem_cons_self
  have declares : program.Declares ⟨1⟩ ⟨["b"]⟩ := rfl
  have undeclared : (⟨2⟩ : RelationId) ∉ program.relationIds := by decide
  obtain ⟨-, -, -, -, outside, places, -, valid⟩ := Program.index_keeps_every_clause program
  obtain ⟨together, reads⟩ := valid accepted
  exact ⟨accepted, listed, declares, undeclared, together, outside _ undeclared,
    (places fact listed).1.mp ⟨⟨1⟩, declares⟩, reads _ _ declares⟩

end GroupedClauses

end DatalogStrata
