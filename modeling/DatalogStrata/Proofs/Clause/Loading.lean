import DatalogStrata.Proofs.Clause.Coding

/-!
# Clauses that were loaded

What a value is read as has proper names, since names are always read from texts, and it is written
at most one container deeper than the value: data that may be left out is written as an empty list.
The same holds of the budget in the place of the depth of the value.

## Main results

* `Term.ofJson?_eq_some`, `Literal.ofJson?_eq_some`, `Atom.ofJson?_eq_some`,
  `Clause.ofJson?_eq_some` — all that a value can be read as
* `Term.ofJson?_within`, `Literal.ofJson?_within`, `Atom.ofJson?_within`, `Clause.ofJson?_within` —
  what is loaded has proper names and is not written much deeper
-/

namespace DatalogStrata

open Json (choice? fields? asText? tagged member)

/-! ## What a value can be read as -/

section

variable {budget : Nat} {value : Json}

theorem Term.ofJson?_eq_some {term : Term} (read : Term.ofJson? budget value = some term) :
    term = .placeholder ∨ ∃ below kind content, budget = below + 1 ∧
      choice? value = some (kind, content) ∧
        ((∃ name, term = .variable name) ∨ (∃ constant, term = .constant constant) ∨
          (∃ fields, term = .record fields ∧ Term.listOfJson? below content = some fields) ∨
          Term.functorOfJson? below content = some term ∨
          Term.aggregateOfJson? below content = some term) := by
  unfold Term.ofJson? at read
  split at read
  · split at read
    · exact Or.inl (Option.some.inj read).symm
    · cases read
  · next _ below _ =>
    split at read
    · next content chosen =>
      obtain ⟨name, _, rfl⟩ := Option.map_eq_some_iff.1 read
      exact Or.inr ⟨below, _, content, rfl, chosen, Or.inl ⟨name, rfl⟩⟩
    · next content chosen =>
      obtain ⟨constant, _, rfl⟩ := Option.map_eq_some_iff.1 read
      exact Or.inr ⟨below, _, content, rfl, chosen, Or.inr (Or.inl ⟨constant, rfl⟩)⟩
    · exact Or.inl (Option.some.inj read).symm
    · next content chosen =>
      obtain ⟨fields, inside, rfl⟩ := Option.map_eq_some_iff.1 read
      exact Or.inr ⟨below, _, content, rfl, chosen, Or.inr (Or.inr (Or.inl ⟨fields, rfl, inside⟩))⟩
    · next content chosen =>
      exact Or.inr ⟨below, _, content, rfl, chosen, Or.inr (Or.inr (Or.inr (Or.inl read)))⟩
    · next content chosen =>
      exact Or.inr ⟨below, _, content, rfl, chosen, Or.inr (Or.inr (Or.inr (Or.inr read)))⟩
    · cases read
  · cases read

theorem Term.functorOfJson?_eq_some {term : Term}
    (read : Term.functorOfJson? budget value = some term) :
    ∃ below name arguments source, budget = below + 1 ∧ term = .functor name arguments ∧
      source.depth < value.depth ∧ Term.listOfJson? below source = some arguments := by
  unfold Term.functorOfJson? at read
  split at read
  · next _ below =>
    split at read
    · next name source found =>
      simp only [Option.bind_eq_bind, Option.bind_eq_some_iff, Option.pure_def,
        Option.some.injEq] at read
      obtain ⟨name, _, arguments, inside, rfl⟩ := read
      exact ⟨below, name, arguments, source, rfl, rfl, Json.depth_lt_of_fields? found (by simp),
        inside⟩
    · cases read
  · cases read

/-- The body of an aggregate; when it is absent it is empty. -/
theorem Term.bodyOfJson?_eq_some {below : Nat} {body : Option Json} {term : Term}
    {make : List Literal → Term}
    (read : (match body with
      | none => (some []).bind fun literals => some (make literals)
      | some source => (Literal.listOfJson? below source).bind fun literals =>
          some (make literals)) = some term) :
    ∃ literals, term = make literals ∧ (literals = [] ∨ ∃ source, body = some source ∧
      Literal.listOfJson? below source = some literals) := by
  cases body with
  | none => exact ⟨[], (Option.some.inj read).symm, Or.inl rfl⟩
  | some source =>
    obtain ⟨literals, inside, same⟩ := Option.bind_eq_some_iff.1 read
    exact ⟨literals, (Option.some.inj same).symm, Or.inr ⟨source, rfl, inside⟩⟩

theorem Term.aggregateOfJson?_eq_some {term : Term}
    (read : Term.aggregateOfJson? budget value = some term) :
    ∃ below operator target body, budget = below + 1 ∧ 0 < value.depth ∧
      term = .aggregate operator target body ∧
      (∀ inner ∈ target, ∃ source, source.depth < value.depth ∧
        Term.ofJson? below source = some inner) ∧
      (body = [] ∨ ∃ source, source.depth < value.depth ∧
        Literal.listOfJson? below source = some body) := by
  unfold Term.aggregateOfJson? at read
  split at read
  · next _ below =>
    split at read
    · next operator target body found =>
      have within : ∀ {field : Json}, some field ∈ [some operator, target, body] →
          field.depth < value.depth := Json.depth_lt_of_fields? found
      have positive := Json.depth_pos_of_fields? found
      have inside : ∀ literals : List Literal, (literals = [] ∨ ∃ source, body = some source ∧
          Literal.listOfJson? below source = some literals) → (literals = [] ∨ ∃ source,
            source.depth < value.depth ∧ Literal.listOfJson? below source = some literals) := by
        intro literals
        refine Or.imp_right ?_
        rintro ⟨source, same, inside⟩
        exact ⟨source, within (by simp [same]), inside⟩
      simp only [Option.bind_eq_bind, Option.bind_eq_some_iff, Option.pure_def] at read
      obtain ⟨aggregator, _, read⟩ := read
      split at read
      · obtain ⟨literals, rfl, from_body⟩ := Term.bodyOfJson?_eq_some read
        exact ⟨below, aggregator, none, literals, rfl, positive, rfl, by simp,
          inside literals from_body⟩
      · obtain ⟨literals, rfl, from_body⟩ := Term.bodyOfJson?_eq_some read
        exact ⟨below, aggregator, none, literals, rfl, positive, rfl, by simp,
          inside literals from_body⟩
      · next source _ =>
        simp only [Option.bind_map, Option.bind_eq_some_iff, Function.comp] at read
        obtain ⟨inner, first, read⟩ := read
        obtain ⟨literals, rfl, from_body⟩ := Term.bodyOfJson?_eq_some read
        refine ⟨below, aggregator, some inner, literals, rfl, positive, rfl, ?_,
          inside literals from_body⟩
        intro term mem
        cases mem
        exact ⟨source, within (by simp), first⟩
    · cases read
  · cases read

theorem Literal.ofJson?_eq_some {literal : Literal}
    (read : Literal.ofJson? budget value = some literal) :
    ∃ below kind content, budget = below + 1 ∧ choice? value = some (kind, content) ∧
      ((∃ atom, (literal = .atom atom ∨ literal = .negation atom) ∧
          Atom.ofJson? below content = some atom) ∨
        Literal.constraintOfJson? below content = some literal ∨
        ∃ truth, literal = .bool truth) := by
  unfold Literal.ofJson? at read
  split at read
  · next _ below =>
    split at read
    · next content chosen =>
      obtain ⟨atom, inside, rfl⟩ := Option.map_eq_some_iff.1 read
      exact ⟨below, _, content, rfl, chosen, Or.inl ⟨atom, Or.inl rfl, inside⟩⟩
    · next content chosen =>
      obtain ⟨atom, inside, rfl⟩ := Option.map_eq_some_iff.1 read
      exact ⟨below, _, content, rfl, chosen, Or.inl ⟨atom, Or.inr rfl, inside⟩⟩
    · next content chosen => exact ⟨below, _, content, rfl, chosen, Or.inr (Or.inl read)⟩
    · next content chosen =>
      obtain ⟨truth, _, rfl⟩ := Option.map_eq_some_iff.1 read
      exact ⟨below, _, content, rfl, chosen, Or.inr (Or.inr ⟨truth, rfl⟩)⟩
    · cases read
  · cases read

theorem Literal.constraintOfJson?_eq_some {literal : Literal}
    (read : Literal.constraintOfJson? budget value = some literal) :
    ∃ below left comparison right first second, budget = below + 1 ∧
      literal = .constraint left comparison right ∧
      first.depth < value.depth ∧ Term.ofJson? below first = some left ∧
      second.depth < value.depth ∧ Term.ofJson? below second = some right := by
  unfold Literal.constraintOfJson? at read
  split at read
  · next _ below =>
    split at read
    · next first comparison second found =>
      simp only [Option.bind_eq_bind, Option.bind_eq_some_iff, Option.pure_def,
        Option.some.injEq] at read
      obtain ⟨left, from_first, comparison, _, right, from_second, rfl⟩ := read
      exact ⟨below, left, comparison, right, first, second, rfl, rfl,
        Json.depth_lt_of_fields? found (by simp), from_first,
        Json.depth_lt_of_fields? found (by simp), from_second⟩
    · cases read
  · cases read

theorem Atom.ofJson?_eq_some {atom : Atom} (read : Atom.ofJson? budget value = some atom) :
    ∃ below text arguments, budget = below + 1 ∧ 0 < value.depth ∧
      atom = ⟨Name.parse text, arguments⟩ ∧ (arguments = [] ∨ ∃ source,
        source.depth < value.depth ∧ Term.listOfJson? below source = some arguments) := by
  unfold Atom.ofJson? at read
  split at read
  · next _ below =>
    split at read
    · next name arguments found =>
      have within : ∀ {field : Json}, some field ∈ [some name, arguments] →
          field.depth < value.depth := Json.depth_lt_of_fields? found
      have positive := Json.depth_pos_of_fields? found
      simp only [Option.bind_eq_bind, Option.bind_eq_some_iff, Option.pure_def] at read
      obtain ⟨_, named, read⟩ := read
      obtain ⟨text, _, rfl⟩ := Option.map_eq_some_iff.1 named
      split at read
      · exact ⟨below, text, [], rfl, positive, (Option.some.inj read).symm, Or.inl rfl⟩
      · next source =>
        obtain ⟨terms, inside, same⟩ := Option.bind_eq_some_iff.1 read
        exact ⟨below, text, terms, rfl, positive, (Option.some.inj same).symm,
          Or.inr ⟨source, within (by simp), inside⟩⟩
    · cases read
  · cases read

theorem Clause.ofJson?_eq_some {clause : Clause}
    (read : Clause.ofJson? budget value = some clause) :
    ∃ below first, budget = below + 1 ∧
      first.depth < value.depth ∧ Atom.ofJson? below first = some clause.head ∧
      (clause.body = [] ∨ ∃ source, source.depth < value.depth ∧
        Literal.listOfJson? below source = some clause.body) := by
  unfold Clause.ofJson? at read
  split at read
  · next _ below =>
    split at read
    · next first body found =>
      simp only [Option.bind_eq_bind, Option.bind_eq_some_iff, Option.pure_def,
        Option.some.injEq] at read
      obtain ⟨head, from_first, literals, inside, rfl⟩ := read
      refine ⟨below, first, rfl, Json.depth_lt_of_fields? found (by simp), from_first, ?_⟩
      cases body with
      | none => exact Or.inl (Option.some.inj inside).symm
      | some source => exact Or.inr ⟨source, Json.depth_lt_of_fields? found (by simp), inside⟩
    · cases read
  · cases read

end

/-! ## What is written for it -/

theorem Term.listOfJson?_eq_asList? (budget : Nat) (value : Json) :
    Term.listOfJson? budget value = Json.asList? Term.ofJson? budget value := by
  cases budget <;> cases value <;> simp [Term.listOfJson?, Json.asList?]

theorem Literal.listOfJson?_eq_asList? (budget : Nat) (value : Json) :
    Literal.listOfJson? budget value = Json.asList? Literal.ofJson? budget value := by
  cases budget <;> cases value <;> simp [Literal.listOfJson?, Json.asList?]

-- By recursion on the budget, which every container on the way down makes smaller.
mutual

theorem Term.ofJson?_within {budget : Nat} {value : Json} {term : Term}
    (read : Term.ofJson? budget value = some term) :
    term.NamesProper ∧ term.toJson.depth ≤ min budget value.depth + 1 := by
  obtain rfl | ⟨below, kind, content, reach, chosen, shape⟩ := Term.ofJson?_eq_some read
  · simp [Term.toJson]
  have deeper := Json.depth_lt_of_choice? chosen
  obtain ⟨name, rfl⟩ | ⟨constant, rfl⟩ | ⟨fields, rfl, inside⟩ | functor | aggregate := shape
  · simp [Term.toJson, tagged, Json.depth]
  · simp [Term.toJson, tagged, Json.depth, Constant.depth_toJson]
  · obtain ⟨proper, written⟩ := Term.listOfJson?_within inside
    have depth : (Term.record fields).toJson.depth =
        (Json.array (fields.map Term.toJson)).depth + 1 := by
      simp [Term.toJson, tagged, Json.depth, Term.allToJson_eq_map]
    exact ⟨Term.namesProper_record.2 proper, by omega⟩
  · obtain ⟨lower, name, arguments, source, reach_lower, rfl, shallower, inside⟩ :=
      Term.functorOfJson?_eq_some functor
    obtain ⟨proper, written⟩ := Term.listOfJson?_within inside
    have depth : (Term.functor name arguments).toJson.depth =
        (Json.array (arguments.map Term.toJson)).depth + 2 := by
      simp [Term.toJson, tagged, Json.depth, Term.allToJson_eq_map]
    exact ⟨Term.namesProper_functor.2 proper, by omega⟩
  · obtain ⟨lower, operator, target, body, reach_lower, positive, rfl, from_target, from_body⟩ :=
      Term.aggregateOfJson?_eq_some aggregate
    obtain ⟨proper, written⟩ := Json.default_within positive from_body fun source inside =>
      Literal.listOfJson?_within inside
    cases target with
    | none =>
      have depth : (Term.aggregate operator none body).toJson.depth =
          (Json.array (body.map Literal.toJson)).depth + 2 := by
        simp [Term.toJson, tagged, Json.depth, Literal.allToJson_eq_map]
      exact ⟨Term.namesProper_aggregate.2 ⟨by simp, proper⟩, by omega⟩
    | some target =>
      obtain ⟨source, shallower, first⟩ := from_target target rfl
      obtain ⟨target_proper, target_written⟩ := Term.ofJson?_within first
      have depth : (Term.aggregate operator (some target) body).toJson.depth =
          max target.toJson.depth (Json.array (body.map Literal.toJson)).depth + 2 := by
        simp [Term.toJson, tagged, Json.depth, Literal.allToJson_eq_map]
      exact ⟨Term.namesProper_aggregate.2 ⟨by simpa using target_proper, proper⟩, by omega⟩
termination_by budget
decreasing_by all_goals omega

theorem Term.listOfJson?_within {budget : Nat} {value : Json} {terms : List Term}
    (read : Term.listOfJson? budget value = some terms) :
    (∀ term ∈ terms, term.NamesProper) ∧
      (Json.array (terms.map Term.toJson)).depth ≤ min budget value.depth + 1 := by
  rw [Term.listOfJson?_eq_asList?] at read
  exact Json.asList?_within (fun below element term reach inside => Term.ofJson?_within inside) read
termination_by budget
decreasing_by all_goals omega

theorem Literal.ofJson?_within {budget : Nat} {value : Json} {literal : Literal}
    (read : Literal.ofJson? budget value = some literal) :
    literal.NamesProper ∧ literal.toJson.depth ≤ min budget value.depth + 1 := by
  obtain ⟨below, kind, content, reach, chosen, shape⟩ := Literal.ofJson?_eq_some read
  have deeper := Json.depth_lt_of_choice? chosen
  obtain ⟨atom, sign, inside⟩ | constraint | ⟨truth, rfl⟩ := shape
  · obtain ⟨proper, written⟩ := Atom.ofJson?_within inside
    obtain rfl | rfl := sign
    · have depth : (Literal.atom atom).toJson.depth = atom.toJson.depth + 1 := by
        simp [Literal.toJson, tagged, Json.depth]
      exact ⟨Literal.namesProper_atom.2 proper, by omega⟩
    · have depth : (Literal.negation atom).toJson.depth = atom.toJson.depth + 1 := by
        simp [Literal.toJson, tagged, Json.depth]
      exact ⟨Literal.namesProper_negation.2 proper, by omega⟩
  · obtain ⟨lower, left, comparison, right, first, second, reach_lower, rfl, first_shallower,
      from_first, second_shallower, from_second⟩ := Literal.constraintOfJson?_eq_some constraint
    obtain ⟨left_proper, left_written⟩ := Term.ofJson?_within from_first
    obtain ⟨right_proper, right_written⟩ := Term.ofJson?_within from_second
    have depth : (Literal.constraint left comparison right).toJson.depth =
        max left.toJson.depth right.toJson.depth + 2 := by
      simp [Literal.toJson, tagged, Json.depth]
    exact ⟨Literal.namesProper_constraint.2 ⟨left_proper, right_proper⟩, by omega⟩
  · simp [Literal.toJson, tagged, Json.depth]
termination_by budget
decreasing_by all_goals omega

theorem Literal.listOfJson?_within {budget : Nat} {value : Json} {literals : List Literal}
    (read : Literal.listOfJson? budget value = some literals) :
    (∀ literal ∈ literals, literal.NamesProper) ∧
      (Json.array (literals.map Literal.toJson)).depth ≤ min budget value.depth + 1 := by
  rw [Literal.listOfJson?_eq_asList?] at read
  exact Json.asList?_within (fun below element literal reach inside =>
    Literal.ofJson?_within inside) read
termination_by budget
decreasing_by all_goals omega

theorem Atom.ofJson?_within {budget : Nat} {value : Json} {atom : Atom}
    (read : Atom.ofJson? budget value = some atom) :
    atom.NamesProper ∧ atom.toJson.depth ≤ min budget value.depth + 1 := by
  obtain ⟨below, text, arguments, reach, positive, rfl, from_arguments⟩ :=
    Atom.ofJson?_eq_some read
  obtain ⟨proper, written⟩ := Json.default_within positive from_arguments fun source inside =>
    Term.listOfJson?_within inside
  have depth : (Atom.mk (Name.parse text) arguments).toJson.depth =
      (Json.array (arguments.map Term.toJson)).depth + 1 := by
    simp [Atom.toJson, Json.depth, Name.depth_toJson, Term.allToJson_eq_map]
  exact ⟨⟨Name.parse_proper text, proper⟩, by omega⟩
termination_by budget
decreasing_by all_goals omega

end

theorem Clause.ofJson?_within {budget : Nat} {value : Json} {clause : Clause}
    (read : Clause.ofJson? budget value = some clause) :
    clause.NamesProper ∧ clause.toJson.depth ≤ min budget value.depth + 1 := by
  obtain ⟨below, first, reach, shallower, from_first, from_body⟩ := Clause.ofJson?_eq_some read
  obtain ⟨head_proper, head_written⟩ := Atom.ofJson?_within from_first
  have positive : 0 < value.depth := by omega
  obtain ⟨proper, written⟩ := Json.default_within positive from_body fun source inside =>
    Literal.listOfJson?_within inside
  have depth : clause.toJson.depth =
      max clause.head.toJson.depth (Json.array (clause.body.map Literal.toJson)).depth + 1 := by
    simp [Clause.toJson, Json.depth, Literal.allToJson_eq_map]
  exact ⟨⟨head_proper, proper⟩, by omega⟩

end DatalogStrata
