import DatalogStrata.Proofs.Clause.Coding

/-!
# Programs that are read back

A program is read back from its text exactly when names and types are told by their texts and the
text is not nested deeper than the reader goes. Programs that are built rather than read need not be
of this kind: a segment of a name may hold a dot, and a named type may be called `number`.

## Main definitions

* `Program.Representable` — what is read back

## Main results

* `Program.read_back_iff` — a program is read back from its text when it is representable
-/

namespace DatalogStrata

open Json (member)

/-! ## Declarations -/

section

variable (budget : Nat) (name type attributes declarations clauses : Json)

theorem Attribute.ofJson?_object :
    Attribute.ofJson? (budget + 1) (.object [member "name" name, member "type" type]) =
      (Json.asText? name).bind fun name =>
        (AttributeType.ofJson? type).bind fun type => some ⟨name, type⟩ := by
  rw [Attribute.ofJson?, Json.fields?_pair (by decide)]
  rfl

theorem Declaration.ofJson?_object :
    Declaration.ofJson? (budget + 1)
        (.object [member "name" name, member "attributes" attributes]) =
      (Name.ofJson? name).bind fun name =>
        (Json.asList? Attribute.ofJson? budget attributes).bind fun attributes =>
          some ⟨name, attributes⟩ := by
  rw [Declaration.ofJson?, Json.fields?_pair (by decide)]
  rfl

theorem Program.ofJson?_object :
    Program.ofJson? (budget + 1)
        (.object [member "relations" declarations, member "clauses" clauses]) =
      (Json.asList? Declaration.ofJson? budget declarations).bind fun declarations =>
        (Json.asList? Clause.ofJson? budget clauses).bind fun clauses =>
          some ⟨declarations, clauses⟩ := by
  rw [Program.ofJson?, Json.fields?_pair (by decide)]
  rfl

end

theorem Attribute.ofJson?_toJson_iff (column : Attribute) (budget : Nat) :
    Attribute.ofJson? budget column.toJson = some column ↔
      column.toJson.depth ≤ budget ∧ column.type.Proper := by
  obtain ⟨name, type⟩ := column
  cases budget with
  | zero => simp [Attribute.ofJson?, Attribute.toJson, Json.depth]
  | succ budget =>
    simp [Attribute.toJson, Json.depth, Attribute.ofJson?_object, AttributeType.ofJson?,
      AttributeType.parse_text_iff]

theorem Declaration.ofJson?_toJson_iff (declaration : Declaration) (budget : Nat) :
    Declaration.ofJson? budget declaration.toJson = some declaration ↔
      declaration.toJson.depth ≤ budget ∧ declaration.name.Proper ∧
        ∀ column ∈ declaration.attributes, column.type.Proper := by
  obtain ⟨name, attributes⟩ := declaration
  cases budget with
  | zero => simp [Declaration.ofJson?, Declaration.toJson, Json.depth]
  | succ budget =>
    have columns := Json.asList?_map_iff Attribute.ofJson?_toJson_iff attributes budget
    simpa [Declaration.toJson, Json.depth, Declaration.ofJson?_object, Option.bind_eq_some_iff,
      Name.ofJson?_toJson_iff, Name.depth_toJson, columns] using and_left_comm

theorem Attribute.plain_toJson (column : Attribute) : column.toJson.Plain := by
  simp [Attribute.toJson]

theorem Declaration.plain_toJson (declaration : Declaration) : declaration.toJson.Plain := by
  have columns := Json.plain_array_map fun column (_ : column ∈ declaration.attributes) =>
    column.plain_toJson
  simp [Declaration.toJson, declaration.name.plain_toJson, columns]

/-! ## Programs -/

namespace Program

/-- All names and types are told by their texts, and the text of the program does not nest deeper
than the reader goes. -/
structure Representable (program : Program) : Prop where
  relationNames : ∀ declaration ∈ program.declarations, declaration.name.Proper
  types : ∀ declaration ∈ program.declarations, ∀ column ∈ declaration.attributes,
    column.type.Proper
  headNames : ∀ clause ∈ program.clauses, clause.head.name.Proper
  /-- The atoms in bodies and those nested in the arguments of heads. -/
  atomNames : ∀ clause ∈ program.clauses, ∀ o, clause.BodyContains o ∨ clause.HeadContains o →
    o.atom.name.Proper
  depth : program.toJson.depth ≤ 127

theorem ofJson?_toJson_iff (program : Program) (budget : Nat) :
    Program.ofJson? budget program.toJson = some program ↔ program.toJson.depth ≤ budget ∧
      (∀ declaration ∈ program.declarations, declaration.name.Proper ∧
        ∀ column ∈ declaration.attributes, column.type.Proper) ∧
      ∀ clause ∈ program.clauses, clause.NamesProper := by
  obtain ⟨declarations, clauses⟩ := program
  cases budget with
  | zero => simp [Program.ofJson?, Program.toJson, Json.depth]
  | succ budget =>
    have first := Json.asList?_map_iff Declaration.ofJson?_toJson_iff declarations budget
    have second := Json.asList?_map_iff Clause.ofJson?_toJson_iff clauses budget
    simpa [Program.toJson, Json.depth, Program.ofJson?_object, Option.bind_eq_some_iff,
      Nat.add_one_le_iff, Nat.max_lt, first, second] using and_and_and_comm

theorem plain_toJson (program : Program) : program.toJson.Plain := by
  have declarations := Json.plain_array_map
    fun declaration (_ : declaration ∈ program.declarations) => declaration.plain_toJson
  have clauses := Json.plain_array_map
    fun clause (_ : clause ∈ program.clauses) => clause.plain_toJson
  simp [toJson, declarations, clauses]

/-- Reading the text of a program is reading the value that the text was written for. -/
theorem read?_render (program : Program) :
    read? program.render = Program.ofJson? depthLimit program.toJson := by
  rw [read?, render, program.plain_toJson.parse?_render, Option.bind_some]

/-- A program is read back from its text exactly when it is representable. -/
theorem read_back_iff (program : Program) :
    read? program.render = some program ↔ program.Representable := by
  rw [read?_render, ofJson?_toJson_iff]
  constructor
  · rintro ⟨depth, declarations, clauses⟩
    have names := fun clause mem => Clause.namesProper_iff.1 (clauses clause mem)
    exact {
      relationNames := fun declaration mem => (declarations declaration mem).1
      types := fun declaration mem => (declarations declaration mem).2
      headNames := fun clause mem => (names clause mem).1
      atomNames := fun clause mem => (names clause mem).2
      depth := depth }
  · intro representable
    refine ⟨representable.depth, fun declaration mem => ?_, fun clause mem => ?_⟩
    · exact ⟨representable.relationNames declaration mem, representable.types declaration mem⟩
    · exact Clause.namesProper_iff.2
        ⟨representable.headNames clause mem, representable.atomNames clause mem⟩

end Program

end DatalogStrata
