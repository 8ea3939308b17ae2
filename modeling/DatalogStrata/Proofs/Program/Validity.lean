import DatalogStrata.Proofs.Program.Index
import DatalogStrata.Proofs.Program.Saving
import Mathlib.Data.List.Nodup

/-!
# Valid programs

A program is without fault when its relations have different names and every clause defines one of
them. Names that were read from a text are told by their texts, so the relations of a program that
was read and accepted are called differently.

## Main results

* `Program.fault?_eq_none_iff` — when a program is without fault
* `Program.relation_eq_of_text` — a relation of an accepted program is told by its name as text
-/

namespace DatalogStrata

/-- No name is repeated and none is among those seen before. -/
theorem firstRepeat?_eq_none_iff {seen names : List Name} :
    firstRepeat? seen names = none ↔ names.Nodup ∧ ∀ name ∈ names, name ∉ seen := by
  induction names generalizing seen with
  | nil => simp [firstRepeat?]
  | cons name rest ih =>
    rw [firstRepeat?]
    by_cases repeated : name ∈ seen
    · simp [repeated]
    · rw [if_neg repeated, ih, List.nodup_cons]
      constructor
      · rintro ⟨distinct, unseen⟩
        refine ⟨⟨fun again => unseen name again List.mem_cons_self, distinct⟩, ?_⟩
        intro other listed
        obtain rfl | later := List.mem_cons.mp listed
        · exact repeated
        · exact fun before => unseen other later (List.mem_cons_of_mem name before)
      · rintro ⟨⟨once, distinct⟩, unseen⟩
        refine ⟨distinct, fun other later before => ?_⟩
        obtain rfl | before := List.mem_cons.mp before
        · exact once later
        · exact unseen other (List.mem_cons_of_mem name later) before

theorem firstRepeat?_nil_eq_none_iff {names : List Name} :
    firstRepeat? [] names = none ↔ names.Nodup := by
  simp [firstRepeat?_eq_none_iff]

namespace Program

/-- A program is without fault when no relation is declared twice and every clause defines a
declared relation. -/
theorem fault?_eq_none_iff {program : Program} :
    program.fault? = none ↔ (program.declarations.map Declaration.name).Nodup ∧
      ∀ clause ∈ program.clauses,
        clause.head.name ∈ program.declarations.map Declaration.name := by
  rw [← firstRepeat?_nil_eq_none_iff, fault?]
  cases firstRepeat? [] (program.declarations.map Declaration.name) <;> simp

theorem validate_eq_ok_iff {program : Program} :
    program.validate = .ok () ↔ program.fault? = none := by
  unfold validate
  cases program.fault? <;> simp

theorem parse_eq_ok_iff {text : String} {program : Program} :
    parse text = .ok program ↔ read? text = some program ∧ program.fault? = none := by
  unfold parse
  cases read? text with
  | none => simp
  | some found =>
    cases fault : found.fault? <;> grind

/-- The names of the relations that were read are proper. -/
theorem declared_proper {text : String} {program : Program}
    (read : read? text = some program) :
    ∀ declaration ∈ program.declarations, declaration.name.Proper := by
  obtain ⟨value, -, read⟩ := Option.bind_eq_some_iff.mp read
  exact fun declaration declared => ((ofJson?_within read).1.1 declaration declared).1

theorem exists_declaration {program : Program} {relation : RelationId}
    (declared : relation ∈ program.relationIds) :
    ∃ declaration, program.declaration? relation = some declaration :=
  ⟨_, List.getElem?_eq_getElem (mem_relationIds_iff.mp declared)⟩

/-- A relation of a program that was read and accepted is told by its name as text. -/
theorem relation_eq_of_text {text : String} {program : Program} (parsed : parse text = .ok program)
    {r s : RelationId} {first second : Declaration} (atR : program.declaration? r = some first)
    (atS : program.declaration? s = some second) (same : first.name.text = second.name.text) :
    r = s := by
  obtain ⟨read, sound⟩ := parse_eq_ok_iff.mp parsed
  have proper := declared_proper read
  have distinct := (fault?_eq_none_iff.mp sound).1
  have names : first.name = second.name := (proper first (List.mem_of_getElem? atR)).eq_of_text
    (proper second (List.mem_of_getElem? atS)) same
  have named {id : RelationId} {declaration : Declaration}
      (found : program.declaration? id = some declaration) :
      (program.declarations.map Declaration.name)[id.index]? = some declaration.name := by
    rw [List.getElem?_map]
    exact congrArg (Option.map Declaration.name) found
  have bound := (List.getElem?_eq_some_iff.mp (named atR)).1
  have place : r.index = s.index := (List.getElem?_inj bound distinct).mp
    ((named atR).trans ((congrArg some names).trans (named atS).symm))
  cases r
  cases s
  exact congrArg RelationId.mk place

end Program

end DatalogStrata
