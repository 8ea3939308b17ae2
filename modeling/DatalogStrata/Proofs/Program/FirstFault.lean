import DatalogStrata.Proofs.Program.Validity

/-!
# The first fault of a program

A program is checked declaration by declaration and then clause by clause, up to the first fault. So
a repeated name is told even where a clause before it in the text defines an undeclared relation,
and of several faults of a kind the one that stands first is told.

## Main definitions

* `RepeatedFirst` — the name that repeats an earlier one before any other does
* `Program.UndeclaredFirst` — the clause that defines an undeclared relation before any other does

## Main results

* `firstRepeat?_eq_some_iff` — which name is found to be repeated
* `Program.validate_tells_first_fault` — when a program is accepted, and which fault is told
-/

namespace DatalogStrata

/-- The name stands in the list behind another place where it stands, and the names before it are
all different. -/
def RepeatedFirst (names : List Name) (name : Name) : Prop :=
  ∃ earlier later, names = earlier ++ name :: later ∧ name ∈ earlier ∧ earlier.Nodup

/-- The clause defines a relation that is not declared, and those before it define declared ones. -/
def Program.UndeclaredFirst (program : Program) (clause : Clause) : Prop :=
  ∃ earlier later, program.clauses = earlier ++ clause :: later ∧
    clause.head.name ∉ program.declarations.map Declaration.name ∧
    ∀ other ∈ earlier, other.head.name ∈ program.declarations.map Declaration.name

/-- The name that is found is the first that stands before itself or has been seen. -/
theorem firstRepeat?_eq_some_iff {seen names : List Name} {name : Name} :
    firstRepeat? seen names = some name ↔ ∃ earlier later, names = earlier ++ name :: later ∧
      (name ∈ earlier ∨ name ∈ seen) ∧ earlier.Nodup ∧ ∀ other ∈ earlier, other ∉ seen := by
  induction names generalizing seen with
  | nil => simp [firstRepeat?]
  | cons first rest ih =>
    rw [firstRepeat?]
    by_cases repeated : first ∈ seen
    · rw [if_pos repeated, Option.some_inj]
      constructor
      · rintro rfl
        exact ⟨[], rest, rfl, .inr repeated, List.nodup_nil, List.forall_mem_nil _⟩
      · rintro ⟨earlier, later, split, -, -, unseen⟩
        cases earlier with
        | nil => exact (List.cons.inj split).1
        | cons other earlier =>
          -- Nothing that has been seen stands before the name that is found.
          rw [(List.cons.inj split).1] at repeated
          exact absurd repeated (unseen other List.mem_cons_self)
    · rw [if_neg repeated, ih]
      constructor
      · rintro ⟨earlier, later, rfl, again, distinct, unseen⟩
        refine ⟨first :: earlier, later, rfl, ?_, ?_, ?_⟩
        · grind
        · exact List.nodup_cons.mpr
            ⟨fun inside => unseen first inside List.mem_cons_self, distinct⟩
        · grind
      · rintro ⟨earlier, later, split, again, distinct, unseen⟩
        cases earlier with
        | nil =>
          obtain ⟨rfl, -⟩ := List.cons.inj split
          exact absurd (again.resolve_left List.not_mem_nil) repeated
        | cons other earlier =>
          obtain ⟨rfl, rfl⟩ := List.cons.inj split
          refine ⟨earlier, later, rfl, ?_, (List.nodup_cons.mp distinct).2, ?_⟩
          · grind
          · grind

theorem repeatedFirst_iff {names : List Name} {name : Name} :
    firstRepeat? [] names = some name ↔ RepeatedFirst names name := by
  simp [firstRepeat?_eq_some_iff, RepeatedFirst]

namespace Program

variable {program : Program} {name : Name} {clause : Clause}

theorem undeclaredFirst_iff :
    (program.clauses.find? fun clause =>
      clause.head.name ∉ program.declarations.map Declaration.name) = some clause ↔
        program.UndeclaredFirst clause := by
  rw [List.find?_eq_some_iff_append, UndeclaredFirst]
  simp only [decide_eq_true_eq, Bool.not_eq_true', decide_eq_false_iff_not, not_not]
  grind

theorem validate_eq_error_iff {fault : Fault} :
    program.validate = .error fault ↔ program.fault? = some fault := by
  unfold validate
  cases program.fault? <;> simp

theorem fault?_eq_duplicateRelation_iff :
    program.fault? = some (.duplicateRelation name) ↔
      RepeatedFirst (program.declarations.map Declaration.name) name := by
  rw [← repeatedFirst_iff, fault?]
  cases firstRepeat? [] (program.declarations.map Declaration.name) <;> simp

theorem fault?_eq_undeclaredHead_iff :
    program.fault? = some (.undeclaredHead clause) ↔
      (program.declarations.map Declaration.name).Nodup ∧ program.UndeclaredFirst clause := by
  rw [← undeclaredFirst_iff, ← firstRepeat?_nil_eq_none_iff, fault?]
  cases firstRepeat? [] (program.declarations.map Declaration.name) <;> simp

theorem exists_repeatedFirst_iff {names : List Name} :
    (∃ name, RepeatedFirst names name) ↔ ∃ name, 2 ≤ names.count name := by
  have twice : (∃ name, 2 ≤ names.count name) ↔ ¬ names.Nodup := by
    simp [List.nodup_iff_count_le_one, Nat.lt_iff_add_one_le]
  simp only [twice, ← firstRepeat?_nil_eq_none_iff, ← repeatedFirst_iff,
    ← Option.isSome_iff_exists, Option.isSome_iff_ne_none, ne_eq]

theorem exists_undeclaredFirst_iff :
    (∃ clause, program.UndeclaredFirst clause) ↔ ∃ clause ∈ program.clauses,
      clause.head.name ∉ program.declarations.map Declaration.name := by
  simp only [← undeclaredFirst_iff, ← Option.isSome_iff_exists, List.find?_isSome,
    decide_eq_true_eq]

/-- A program is accepted when its relations have different names and every clause defines one of
them. Otherwise one fault is told. If some name is declared twice, it is the name of the first
declaration that repeats an earlier one, whatever the clauses are. If no name is, it is the first
clause that defines an undeclared relation. The message tells the name, or the text of the clause
and the name of its head. -/
theorem validate_tells_first_fault (program : Program) :
    let names := program.declarations.map Declaration.name
    (program.validate = .ok () ↔
      names.Nodup ∧ ∀ clause ∈ program.clauses, clause.head.name ∈ names) ∧
    ((∃ name, program.validate = .error (.duplicateRelation name)) ↔
      ∃ name, 2 ≤ names.count name) ∧
    (∀ name, program.validate = .error (.duplicateRelation name) ↔ RepeatedFirst names name) ∧
    ((∃ clause, program.validate = .error (.undeclaredHead clause)) ↔
      names.Nodup ∧ ∃ clause ∈ program.clauses, clause.head.name ∉ names) ∧
    (∀ clause, program.validate = .error (.undeclaredHead clause) ↔
      names.Nodup ∧ program.UndeclaredFirst clause) ∧
    ∀ fault, program.validate = .error fault →
      (∃ name, RepeatedFirst names name ∧
        fault.message = "Program error: relation '" ++ name.text ++
          "' is declared more than once") ∨
      ∃ clause, program.UndeclaredFirst clause ∧
        fault.message = "Program error: clause `" ++ clause.text ++
          "` defines undeclared relation '" ++ clause.head.name.text ++ "'" := by
  intro names
  have repeats (name : Name) : program.validate = .error (.duplicateRelation name) ↔
      RepeatedFirst names name :=
    validate_eq_error_iff.trans fault?_eq_duplicateRelation_iff
  have lacks (clause : Clause) : program.validate = .error (.undeclaredHead clause) ↔
      names.Nodup ∧ program.UndeclaredFirst clause :=
    validate_eq_error_iff.trans fault?_eq_undeclaredHead_iff
  refine ⟨validate_eq_ok_iff.trans fault?_eq_none_iff, ?_, repeats, ?_, lacks, ?_⟩
  · simp only [repeats, exists_repeatedFirst_iff]
  · simp only [lacks, exists_and_left, exists_undeclaredFirst_iff, names]
  · intro fault told
    cases fault with
    | duplicateRelation name => exact .inl ⟨name, (repeats name).mp told, rfl⟩
    | undeclaredHead clause => exact .inr ⟨clause, ((lacks clause).mp told).2, rfl⟩

end Program

end DatalogStrata
