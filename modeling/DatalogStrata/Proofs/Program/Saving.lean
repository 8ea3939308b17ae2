import DatalogStrata.Proofs.Clause.Loading
import DatalogStrata.Proofs.Program.RoundTrip

/-!
# Saving what was loaded

Whatever is read from a text has proper names and types. It is written at most one container deeper
than the text it was read from: lists that the text left out are written as empty lists. So a loaded
program is read back from its own text, unless an empty list that was left out ends up below as many
containers as may enclose data.

## Main results

* `Program.reload_iff` — when a loaded program is read back
* `DeepAggregate.not_reloaded` — a text that is read as a program whose own text is refused
-/

namespace DatalogStrata

open Json (member tagged)

/-! ## Declarations -/

/-- A list that is empty when its field is absent is written at most as deep as the structure that
has the field. -/
theorem Json.orDefault_asList?_within {α : Type} {P : α → Prop} {encode : α → Json}
    {decode? : Nat → Json → Option α} (each : ∀ budget value item,
      decode? budget value = some item →
        P item ∧ (encode item).depth ≤ min budget value.depth + 1)
    {field : Option Json} {items : List α} {budget depth : Nat} (positive : 0 < depth)
    (shallower : ∀ value ∈ field, value.depth < depth)
    (read : orDefault [] (asList? decode? budget) field = some items) :
    (∀ item ∈ items, P item) ∧
      (Json.array (items.map encode)).depth ≤ min (budget + 1) depth := by
  have origin : items = [] ∨ ∃ source, source.depth < depth ∧
      asList? decode? budget source = some items := by
    cases field with
    | none => exact Or.inl (Option.some.inj read).symm
    | some source => exact Or.inr ⟨source, shallower source rfl, read⟩
  exact default_within positive origin fun source inside =>
    asList?_within (fun below element item _ => each below element item) inside

theorem Attribute.ofJson?_within (budget : Nat) (value : Json) (column : Attribute)
    (read : Attribute.ofJson? budget value = some column) :
    column.type.Proper ∧ column.toJson.depth ≤ min budget value.depth + 1 := by
  unfold Attribute.ofJson? at read
  split at read
  · split at read
    · next name type found =>
      simp only [Option.bind_eq_bind, Option.bind_eq_some_iff, Option.pure_def,
        Option.some.injEq] at read
      obtain ⟨_, _, _, typed, rfl⟩ := read
      obtain ⟨text, _, rfl⟩ := Option.map_eq_some_iff.1 typed
      refine ⟨AttributeType.parse_proper text, ?_⟩
      simp [Attribute.toJson, Json.depth]
    · cases read
  · cases read

theorem Declaration.ofJson?_within (budget : Nat) (value : Json) (declaration : Declaration)
    (read : Declaration.ofJson? budget value = some declaration) :
    (declaration.name.Proper ∧ ∀ column ∈ declaration.attributes, column.type.Proper) ∧
      declaration.toJson.depth ≤ min budget value.depth + 1 := by
  unfold Declaration.ofJson? at read
  split at read
  · next _ below =>
    split at read
    · next name attributes found =>
      simp only [Option.bind_eq_bind, Option.bind_eq_some_iff, Option.pure_def,
        Option.some.injEq] at read
      obtain ⟨_, named, columns, listed, rfl⟩ := read
      obtain ⟨text, _, rfl⟩ := Option.map_eq_some_iff.1 named
      obtain ⟨proper, written⟩ := Json.orDefault_asList?_within Attribute.ofJson?_within
        (Json.depth_pos_of_fields? found)
        (fun field mem => Json.depth_lt_of_fields? found (by simp_all)) listed
      have depth : (Declaration.mk (Name.parse text) columns).toJson.depth =
          (Json.array (columns.map Attribute.toJson)).depth + 1 := by
        simp [Declaration.toJson, Json.depth, Name.depth_toJson]
      exact ⟨⟨Name.parse_proper text, proper⟩, by omega⟩
    · cases read
  · cases read

/-! ## Programs -/

namespace Program

theorem ofJson?_within {budget : Nat} {value : Json} {program : Program}
    (read : Program.ofJson? budget value = some program) :
    ((∀ declaration ∈ program.declarations, declaration.name.Proper ∧
        ∀ column ∈ declaration.attributes, column.type.Proper) ∧
      ∀ clause ∈ program.clauses, clause.NamesProper) ∧
      program.toJson.depth ≤ min budget value.depth + 1 := by
  unfold Program.ofJson? at read
  split at read
  · next _ below =>
    split at read
    · next from_declarations from_clauses found =>
      have within : ∀ field, some field ∈ [from_declarations, from_clauses] →
          field.depth < value.depth := fun field => Json.depth_lt_of_fields? found
      have positive := Json.depth_pos_of_fields? found
      simp only [Option.bind_eq_bind, Option.bind_eq_some_iff, Option.pure_def,
        Option.some.injEq] at read
      obtain ⟨declarations, declared, clauses, listed, rfl⟩ := read
      obtain ⟨declarations_proper, declarations_written⟩ :=
        Json.orDefault_asList?_within Declaration.ofJson?_within positive
          (fun field mem => within field (by simp_all)) declared
      obtain ⟨clauses_proper, clauses_written⟩ :=
        Json.orDefault_asList?_within (fun _ _ _ => Clause.ofJson?_within) positive
          (fun field mem => within field (by simp_all)) listed
      have depth : (Program.mk declarations clauses).toJson.depth =
          max (Json.array (declarations.map Declaration.toJson)).depth
            (Json.array (clauses.map Clause.toJson)).depth + 1 := by
        simp [Program.toJson, Json.depth]
      exact ⟨⟨declarations_proper, clauses_proper⟩, by omega⟩
    · cases read
  · cases read

/-- What is loaded from a text has proper names and types and is written at most one container
deeper than the text, so it is read back unless that one container is too many. -/
theorem reload_iff {text : String} {program : Program}
    (loaded : read? text = some program) :
    (read? program.render = some program ↔ program.toJson.depth ≤ 127) ∧
      ∃ value, Json.parse? text = some value ∧
        program.toJson.depth ≤ min 127 value.depth + 1 := by
  obtain ⟨value, parsed, read⟩ := Option.bind_eq_some_iff.1 loaded
  obtain ⟨proper, written⟩ := ofJson?_within read
  constructor
  · rw [read?_render, ofJson?_toJson_iff]
    exact and_iff_left proper
  · exact ⟨value, parsed, written⟩

end Program

namespace ShortFact

/-- A text that leaves out all it may: a fact of a relation without columns. -/
def text : String :=
  "\x7b\"clauses\":[\x7b\"head\":\x7b\"name\":\"flag\"\x7d\x7d]\x7d"

/-- The program that the text describes. -/
def program : Program :=
  ⟨[], [⟨⟨⟨["flag"]⟩, []⟩, []⟩]⟩

theorem reloaded : Program.read? text = some program ∧
    Program.read? program.render = some program := by
  have loaded : Program.read? text = some program := by decide +kernel
  exact ⟨loaded, (Program.reload_iff loaded).1.2 (by decide)⟩

end ShortFact

/-! ## A program that is not read back

An aggregate that says neither target nor body, below so many records that no container fits between
it and the limit. The empty body that is written for it is one container too many. -/

namespace DeepAggregate

/-- The aggregate below some records, as the text has it. -/
def value : Nat → Json
  | 0 => tagged "aggregate" (.object [member "operator" (.text "min")])
  | records + 1 => tagged "record" (.array [value records])

/-- The term that is read. -/
def term : Nat → Term
  | 0 => .aggregate .min none []
  | records + 1 => .record [term records]

/-- A relation and a fact that has the term for its argument. -/
def source (records : Nat) : Json :=
  .object [
    member "relations" (.array [.object [member "name" (.text "a")]]),
    member "clauses" (.array [.object [member "head" (.object
      [member "name" (.text "a"), member "arguments" (.array [value records])])]])]

/-- The program that is read. -/
def program (records : Nat) : Program :=
  ⟨[⟨Name.parse "a", []⟩], [⟨⟨Name.parse "a", [term records]⟩, []⟩]⟩

theorem ofJson?_record (budget : Nat) (item : Json) :
    Term.ofJson? (budget + 2) (tagged "record" (.array [item])) =
      (Term.ofJson? budget item).map fun field => .record [field] := by
  have step : Term.ofJson? (budget + 2) (tagged "record" (.array [item])) =
      (Term.listOfJson? (budget + 1) (.array [item])).map .record := by
    simp [tagged, Term.ofJson?]
  rw [step, Term.listOfJson?]
  cases inside : Term.ofJson? budget item <;> simp [inside]

/-- Reading takes two containers for each record and two for the aggregate. -/
theorem ofJson?_value (records : Nat) :
    Term.ofJson? (2 * records + 2) (value records) = some (term records) := by
  induction records with
  | zero => rfl
  | succ records ih =>
    rw [value, Nat.mul_succ, ofJson?_record, ih]
    rfl

/-- As many containers are too few for what is written. -/
theorem ofJson?_toJson (records : Nat) :
    Term.ofJson? (2 * records + 2) (term records).toJson = none := by
  induction records with
  | zero => rfl
  | succ records ih =>
    rw [term, Term.toJson, Term.allToJson, Term.allToJson, Nat.mul_succ, ofJson?_record, ih]
    rfl

theorem plain_value (records : Nat) : (value records).Plain := by
  induction records with
  | zero => simp [value, tagged]
  | succ records ih => simp [value, tagged, ih]

/-- A fact may be written without a body. -/
theorem ofJson?_fact (budget : Nat) (head : Json) :
    Clause.ofJson? (budget + 1) (.object [member "head" head]) =
      (Atom.ofJson? budget head).map fun head => ⟨head, []⟩ := by
  have fields : Json.fields? ["head", "body"] (.object [member "head" head]) =
      some [some head, none] := rfl
  rw [Clause.ofJson?, fields]
  cases inside : Atom.ofJson? budget head <;> simp [Json.orDefault, inside]

theorem ofJson?_source (records : Nat) :
    Program.ofJson? (2 * records + 7) (source records) = some (program records) := by
  have argument : Term.listOfJson? (2 * records + 3) (.array [value records]) =
      some [term records] := by simp [Term.listOfJson?, ofJson?_value]
  have clause : Clause.ofJson? (2 * records + 5) (.object [member "head" (.object
      [member "name" (.text "a"), member "arguments" (.array [value records])])]) =
        some ⟨⟨Name.parse "a", [term records]⟩, []⟩ := by
    rw [ofJson?_fact, Atom.ofJson?_object, argument]
    rfl
  have relation : Declaration.ofJson? (2 * records + 5) (.object [member "name" (.text "a")]) =
      some ⟨Name.parse "a", []⟩ := rfl
  rw [source, Program.ofJson?_object, Json.asList?, Json.asList?, List.mapM_cons, List.mapM_cons,
    relation, clause]
  rfl

/-- The text is read. -/
theorem read?_text : Program.read? (source 60).render = some (program 60) := by
  have plain : (source 60).Plain := by simp [source, plain_value]
  rw [Program.read?, plain.parse?_render, Option.bind_some]
  exact ofJson?_source 60

theorem ofJson?_program (records : Nat) :
    Program.ofJson? (2 * records + 7) (program records).toJson = none := by
  have argument : Term.listOfJson? (2 * records + 3) (.array (Term.allToJson [term records])) =
      none := by simp [Term.listOfJson?, Term.allToJson, ofJson?_toJson]
  have clauses : Json.asList? Clause.ofJson? (2 * records + 6)
      (.array ((program records).clauses.map Clause.toJson)) = none := by
    simp [program, Json.asList?, Clause.toJson, Clause.ofJson?_object, Atom.toJson,
      Atom.ofJson?_object, argument]
  rw [Program.toJson, Program.ofJson?_object, Option.bind_eq_none_iff]
  intro declarations _
  rw [clauses, Option.bind_none]

/-- The program is loaded from a text, and its own text is refused. -/
theorem not_reloaded : Program.read? (source 60).render = some (program 60) ∧
    Program.read? (program 60).render = none := by
  refine ⟨read?_text, ?_⟩
  rw [Program.read?_render]
  exact ofJson?_program 60

end DeepAggregate

end DatalogStrata
