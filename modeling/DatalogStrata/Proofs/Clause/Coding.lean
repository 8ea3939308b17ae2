import DatalogStrata.Program.Decode
import DatalogStrata.Program.Encode
import DatalogStrata.Proofs.Clause.Occurrence
import DatalogStrata.Proofs.Declaration
import DatalogStrata.Proofs.Json.Shape
import DatalogStrata.Proofs.Json.RoundTrip

/-!
# Reading back clauses

What a term, a literal or an atom is written as is read back as the same, provided that all names
in it are proper and that the budget reaches for the depth of what is written. Both provisos are
needed: the text of a name that is not proper is read as another name.

## Main definitions

* `Term.NamesProper`, `Literal.NamesProper`, `Atom.NamesProper`, `Clause.NamesProper` — all names
  are proper

## Main results

* `Term.ofJson?_toJson_iff`, `Literal.ofJson?_toJson_iff`, `Atom.ofJson?_toJson_iff`,
  `Clause.ofJson?_toJson_iff` — what is read back
-/

namespace DatalogStrata

open Json (member tagged)

/-! ## Names -/

/-- The atoms in the term have proper names. -/
def Term.NamesProper (term : Term) : Prop :=
  ∀ o, term.Contains o → o.atom.name.Proper

/-- The atoms in the literal have proper names. -/
def Literal.NamesProper (literal : Literal) : Prop :=
  ∀ o, literal.Contains o → o.atom.name.Proper

/-- The atom has a proper name, and so have the atoms in its arguments. -/
def Atom.NamesProper (atom : Atom) : Prop :=
  atom.name.Proper ∧ ∀ term ∈ atom.arguments, term.NamesProper

/-- All atoms of the clause have proper names. -/
def Clause.NamesProper (clause : Clause) : Prop :=
  clause.head.NamesProper ∧ ∀ literal ∈ clause.body, literal.NamesProper

section

variable {fields : List Term} {body : List Literal} {atom : Atom}

@[simp]
theorem Term.namesProper_variable (name : String) : (Term.variable name).NamesProper := by
  rintro o ⟨⟩

@[simp]
theorem Term.namesProper_constant (value : Constant) : (Term.constant value).NamesProper := by
  rintro o ⟨⟩

@[simp]
theorem Term.namesProper_placeholder : Term.placeholder.NamesProper := by
  rintro o ⟨⟩

@[simp]
theorem Term.namesProper_record :
    (Term.record fields).NamesProper ↔ ∀ term ∈ fields, term.NamesProper := by
  simp only [Term.NamesProper, Term.contains_record_iff]
  grind

@[simp]
theorem Term.namesProper_functor {name : String} :
    (Term.functor name fields).NamesProper ↔ ∀ term ∈ fields, term.NamesProper := by
  simp only [Term.NamesProper, Term.contains_functor_iff]
  grind

@[simp]
theorem Term.namesProper_aggregate {operator : Aggregator} {target : Option Term} :
    (Term.aggregate operator target body).NamesProper ↔
      (∀ term ∈ target, term.NamesProper) ∧ ∀ literal ∈ body, literal.NamesProper := by
  simp only [Term.NamesProper, Literal.NamesProper, Term.contains_aggregate_iff]
  grind

@[simp]
theorem Literal.namesProper_atom : (Literal.atom atom).NamesProper ↔ atom.NamesProper := by
  simp only [Atom.NamesProper, Term.NamesProper, Literal.NamesProper, Literal.contains_atom_iff,
    or_imp, forall_and, forall_eq]
  grind

@[simp]
theorem Literal.namesProper_negation : (Literal.negation atom).NamesProper ↔ atom.NamesProper := by
  simp only [Atom.NamesProper, Term.NamesProper, Literal.NamesProper, Literal.contains_negation_iff,
    or_imp, forall_and, forall_eq]
  grind

@[simp]
theorem Literal.namesProper_constraint {left right : Term} {comparison : Comparison} :
    (Literal.constraint left comparison right).NamesProper ↔
      left.NamesProper ∧ right.NamesProper := by
  simp only [Term.NamesProper, Literal.NamesProper, Literal.contains_constraint_iff]
  grind

@[simp]
theorem Literal.namesProper_bool (value : Bool) : (Literal.bool value).NamesProper := by
  rintro o ⟨⟩

/-- The atoms of a clause are its head and what occurs in it. -/
theorem Clause.namesProper_iff {clause : Clause} :
    clause.NamesProper ↔ clause.head.name.Proper ∧
      ∀ o, clause.BodyContains o ∨ clause.HeadContains o → o.atom.name.Proper := by
  simp only [Clause.NamesProper, Atom.NamesProper, Term.NamesProper, Literal.NamesProper,
    Clause.BodyContains, Clause.HeadContains]
  grind

end

/-! ## The leaves -/

theorem Name.ofJson?_toJson_iff {name : Name} :
    Name.ofJson? name.toJson = some name ↔ name.Proper := by
  simp [Name.ofJson?, Name.toJson, Name.parse_text_iff]

theorem Name.depth_toJson (name : Name) : name.toJson.depth = 0 :=
  Json.depth_text name.text

theorem Constant.ofJson?_toJson (value : Constant) :
    Constant.ofJson? value.toJson = some value := by
  cases value with
  | number value =>
    have bounds := And.intro (Int64.minValue_le_toInt value) (Int64.toInt_le value)
    rw [Constant.toJson, Constant.ofJson?, if_pos bounds, Int64.ofInt_toInt]
  | symbol value =>
    rw [Constant.toJson, Json.text, Constant.ofJson?, Json.textOf?_contentOf]
    rfl

theorem Aggregator.ofJson?_text (budget : Nat) (operator : Aggregator) :
    Aggregator.ofJson? budget (Json.text operator.text) = some operator := by
  rw [Aggregator.ofJson?, Json.text, Json.bareChoice?, Json.textOf?_contentOf]
  cases operator <;> rfl

theorem Comparison.ofJson?_text (budget : Nat) (comparison : Comparison) :
    Comparison.ofJson? budget (Json.text comparison.text) = some comparison := by
  rw [Comparison.ofJson?, Json.text, Json.bareChoice?, Json.textOf?_contentOf]
  cases comparison <;> rfl

theorem Constant.depth_toJson (value : Constant) : value.toJson.depth = 0 := by
  cases value <;> rfl

/-! ## Trees -/

theorem Term.allToJson_eq_map (terms : List Term) :
    Term.allToJson terms = terms.map Term.toJson := by
  induction terms with
  | nil => rfl
  | cons term rest ih => rw [Term.allToJson, List.map_cons, ih]

theorem Literal.allToJson_eq_map (literals : List Literal) :
    Literal.allToJson literals = literals.map Literal.toJson := by
  induction literals with
  | nil => rfl
  | cons literal rest ih => rw [Literal.allToJson, List.map_cons, ih]

/-- No term is written as a null, which would be read as an absent target. -/
theorem Term.toJson_ne_null (term : Term) : term.toJson ≠ .null := by
  cases term with
  | aggregate operator target body => cases target <;> simp [Term.toJson, tagged]
  | _ => simp [Term.toJson, tagged, Json.text]

section

variable (budget : Nat) (name arguments operator target body left comparison right head : Json)

theorem Term.functorOfJson?_object :
    Term.functorOfJson? (budget + 1) (.object [member "name" name, member "args" arguments]) =
      (Json.asText? name).bind fun name =>
        (Term.listOfJson? budget arguments).bind fun arguments =>
          some (.functor name arguments) := by
  rw [Term.functorOfJson?, Json.fields?_pair (by decide)]
  rfl

theorem Term.aggregateOfJson?_null :
    Term.aggregateOfJson? (budget + 1)
        (.object [member "operator" operator, member "target" .null, member "body" body]) =
      (Aggregator.ofJson? budget operator).bind fun operator =>
        (Literal.listOfJson? budget body).bind fun body =>
          some (.aggregate operator none body) := by
  rw [Term.aggregateOfJson?, Json.fields?_triple (by decide)]
  rfl

theorem Term.aggregateOfJson?_target (other : target ≠ .null) :
    Term.aggregateOfJson? (budget + 1)
        (.object [member "operator" operator, member "target" target, member "body" body]) =
      (Aggregator.ofJson? budget operator).bind fun operator =>
        (Term.ofJson? budget target).bind fun target =>
          (Literal.listOfJson? budget body).bind fun body =>
            some (.aggregate operator (some target) body) := by
  rw [Term.aggregateOfJson?, Json.fields?_triple (by decide)]
  simp only [Option.pure_def, Option.bind_eq_bind, Option.bind_map, Function.comp_def]

theorem Literal.constraintOfJson?_object :
    Literal.constraintOfJson? (budget + 1)
        (.object [member "lhs" left, member "op" comparison, member "rhs" right]) =
      (Term.ofJson? budget left).bind fun left =>
        (Comparison.ofJson? budget comparison).bind fun comparison =>
          (Term.ofJson? budget right).bind fun right =>
            some (.constraint left comparison right) := by
  rw [Literal.constraintOfJson?, Json.fields?_triple (by decide)]
  rfl

theorem Atom.ofJson?_object :
    Atom.ofJson? (budget + 1) (.object [member "name" name, member "arguments" arguments]) =
      (Name.ofJson? name).bind fun name =>
        (Term.listOfJson? budget arguments).bind fun arguments => some ⟨name, arguments⟩ := by
  rw [Atom.ofJson?, Json.fields?_pair (by decide)]
  rfl

theorem Clause.ofJson?_object :
    Clause.ofJson? (budget + 1) (.object [member "head" head, member "body" body]) =
      (Atom.ofJson? budget head).bind fun head =>
        (Literal.listOfJson? budget body).bind fun body => some ⟨head, body⟩ := by
  rw [Clause.ofJson?, Json.fields?_pair (by decide)]
  rfl

end

mutual

/-- Terms are read back when their names are proper and the budget reaches. -/
theorem Term.ofJson?_toJson_iff : ∀ (term : Term) (budget : Nat),
    Term.ofJson? budget term.toJson = some term ↔
      term.toJson.depth ≤ budget ∧ term.NamesProper
  | .variable _, budget => by
    cases budget <;> simp [Term.toJson, tagged, Term.ofJson?, Json.depth]
  | .constant _, budget => by
    cases budget <;>
      simp [Term.toJson, tagged, Term.ofJson?, Json.depth, Constant.ofJson?_toJson,
        Constant.depth_toJson]
  | .placeholder, _ => by
    simp [Term.toJson, Json.text, Term.ofJson?, Json.depth]
  -- What has parts takes one level for its tag and, unless it is a record, one for its fields.
  | .record _, 0 | .functor _ _, 0 | .aggregate _ none _, 0 | .aggregate _ (some _) _, 0 => by
    simp [Term.toJson, tagged, Term.ofJson?, Json.depth]
  | .functor _ _, 1 | .aggregate _ none _, 1 | .aggregate _ (some _) _, 1 => by
    simp [Term.toJson, tagged, Term.ofJson?, Term.functorOfJson?, Term.aggregateOfJson?, Json.depth]
  | .record fields, budget + 1 => by
    have inside := Term.listOfJson?_toJson_iff fields budget
    simp [Term.toJson, tagged, Term.ofJson?, Json.depth, inside]
  | .functor _ arguments, budget + 2 => by
    have inside := Term.listOfJson?_toJson_iff arguments budget
    simp [Term.toJson, tagged, Term.ofJson?, Json.depth, Term.functorOfJson?_object,
      Option.bind_eq_some_iff, inside]
  | .aggregate _ none body, budget + 2 => by
    have inside := Literal.listOfJson?_toJson_iff body budget
    simp [Term.toJson, tagged, Term.ofJson?, Json.depth, Term.aggregateOfJson?_null,
      Aggregator.ofJson?_text, Option.bind_eq_some_iff, inside]
  | .aggregate _ (some target) body, budget + 2 => by
    have first := Term.ofJson?_toJson_iff target budget
    have inside := Literal.listOfJson?_toJson_iff body budget
    have present := target.toJson_ne_null
    simpa [Term.toJson, tagged, Term.ofJson?, Json.depth, Term.aggregateOfJson?_target, present,
      Aggregator.ofJson?_text, Option.bind_eq_some_iff, Nat.max_le, inside, first]
      using and_and_and_comm

theorem Term.listOfJson?_toJson_iff : ∀ (terms : List Term) (budget : Nat),
    Term.listOfJson? budget (.array (Term.allToJson terms)) = some terms ↔
      (Json.array (Term.allToJson terms)).depth ≤ budget ∧ ∀ term ∈ terms, term.NamesProper
  | [], budget => by
    cases budget <;> simp [Term.listOfJson?, Term.allToJson, Json.depth, Json.itemDepth]
  | term :: rest, 0 => by
    simp [Term.listOfJson?, Json.depth]
  | term :: rest, budget + 1 => by
    have first := Term.ofJson?_toJson_iff term budget
    have later : (Term.allToJson rest).mapM (Term.ofJson? budget) = some rest ↔
        Json.itemDepth (Term.allToJson rest) ≤ budget ∧ ∀ term ∈ rest, term.NamesProper := by
      simpa [Term.listOfJson?, Json.depth] using Term.listOfJson?_toJson_iff rest (budget + 1)
    simpa [Term.listOfJson?, Term.allToJson, Json.depth, Json.itemDepth, Option.bind_eq_some_iff,
      Nat.max_le, first, later] using and_and_and_comm

theorem Literal.ofJson?_toJson_iff : ∀ (literal : Literal) (budget : Nat),
    Literal.ofJson? budget literal.toJson = some literal ↔
      literal.toJson.depth ≤ budget ∧ literal.NamesProper
  | literal, 0 => by
    cases literal <;> simp [Literal.toJson, tagged, Literal.ofJson?, Json.depth]
  | .atom atom, budget + 1 => by
    have inside := Atom.ofJson?_toJson_iff atom budget
    simp [Literal.toJson, tagged, Literal.ofJson?, Json.depth, inside]
  | .negation atom, budget + 1 => by
    have inside := Atom.ofJson?_toJson_iff atom budget
    simp [Literal.toJson, tagged, Literal.ofJson?, Json.depth, inside]
  | .constraint _ _ _, 1 => by
    simp [Literal.toJson, tagged, Literal.ofJson?, Literal.constraintOfJson?, Json.depth]
  | .constraint left _ right, budget + 2 => by
    have first := Term.ofJson?_toJson_iff left budget
    have second := Term.ofJson?_toJson_iff right budget
    simpa [Literal.toJson, tagged, Literal.ofJson?, Json.depth, Literal.constraintOfJson?_object,
      Comparison.ofJson?_text, Option.bind_eq_some_iff, Nat.max_le, first, second]
      using and_and_and_comm
  | .bool _, budget + 1 => by
    simp [Literal.toJson, tagged, Literal.ofJson?, Json.depth, Json.asBool?]

theorem Literal.listOfJson?_toJson_iff : ∀ (literals : List Literal) (budget : Nat),
    Literal.listOfJson? budget (.array (Literal.allToJson literals)) = some literals ↔
      (Json.array (Literal.allToJson literals)).depth ≤ budget ∧
        ∀ literal ∈ literals, literal.NamesProper
  | [], budget => by
    cases budget <;> simp [Literal.listOfJson?, Literal.allToJson, Json.depth, Json.itemDepth]
  | literal :: rest, 0 => by
    simp [Literal.listOfJson?, Json.depth]
  | literal :: rest, budget + 1 => by
    have first := Literal.ofJson?_toJson_iff literal budget
    have later : (Literal.allToJson rest).mapM (Literal.ofJson? budget) = some rest ↔
        Json.itemDepth (Literal.allToJson rest) ≤ budget ∧
          ∀ literal ∈ rest, literal.NamesProper := by
      simpa [Literal.listOfJson?, Json.depth] using Literal.listOfJson?_toJson_iff rest (budget + 1)
    simpa [Literal.listOfJson?, Literal.allToJson, Json.depth, Json.itemDepth,
      Option.bind_eq_some_iff, Nat.max_le, first, later] using and_and_and_comm

theorem Atom.ofJson?_toJson_iff : ∀ (atom : Atom) (budget : Nat),
    Atom.ofJson? budget atom.toJson = some atom ↔ atom.toJson.depth ≤ budget ∧ atom.NamesProper
  | ⟨_, _⟩, 0 => by
    simp [Atom.toJson, Atom.ofJson?, Json.depth]
  | ⟨name, arguments⟩, budget + 1 => by
    have inside := Term.listOfJson?_toJson_iff arguments budget
    simpa [Atom.toJson, Json.depth, Atom.ofJson?_object, Option.bind_eq_some_iff, inside,
      Name.depth_toJson, Name.ofJson?_toJson_iff, Atom.NamesProper] using and_left_comm

end

/-- Clauses are read back when their names are proper and the budget reaches. -/
theorem Clause.ofJson?_toJson_iff (clause : Clause) (budget : Nat) :
    Clause.ofJson? budget clause.toJson = some clause ↔
      clause.toJson.depth ≤ budget ∧ clause.NamesProper := by
  obtain ⟨head, body⟩ := clause
  cases budget with
  | zero => simp [Clause.ofJson?, Clause.toJson, Json.depth]
  | succ budget =>
    have first := head.ofJson?_toJson_iff budget
    have second := Literal.listOfJson?_toJson_iff body budget
    simpa [Clause.toJson, Json.depth, Clause.ofJson?_object, Option.bind_eq_some_iff, Nat.max_le,
      Clause.NamesProper, first, second] using and_and_and_comm

/-! ## Plain values -/

theorem Name.plain_toJson (name : Name) : name.toJson.Plain :=
  .text name.text

theorem Constant.plain_toJson : ∀ value : Constant, value.toJson.Plain
  | .number value => .whole value.toInt
  | .symbol value => .text value

mutual

/-- Terms are written with whole numbers and texts only. -/
theorem Term.plain_toJson : ∀ term : Term, term.toJson.Plain
  | .variable _ => by simp [Term.toJson, tagged]
  | .constant value => by simp [Term.toJson, tagged, value.plain_toJson]
  | .placeholder => by simp [Term.toJson]
  | .record fields => by simp [Term.toJson, tagged, Term.plain_allToJson fields]
  | .functor _ arguments => by simp [Term.toJson, tagged, Term.plain_allToJson arguments]
  | .aggregate _ none body => by simp [Term.toJson, tagged, Literal.plain_allToJson body]
  | .aggregate _ (some target) body => by
    simp [Term.toJson, tagged, Term.plain_toJson target, Literal.plain_allToJson body]

theorem Term.plain_allToJson : ∀ terms : List Term, (Json.array (Term.allToJson terms)).Plain
  | [] => by simp [Term.allToJson]
  | term :: rest => by
    simp [Term.allToJson, Term.plain_toJson term, Term.plain_allToJson rest]

/-- Literals are written with whole numbers and texts only. -/
theorem Literal.plain_toJson : ∀ literal : Literal, literal.toJson.Plain
  | .atom atom => by simp [Literal.toJson, tagged, Atom.plain_toJson atom]
  | .negation atom => by simp [Literal.toJson, tagged, Atom.plain_toJson atom]
  | .constraint left _ right => by
    simp [Literal.toJson, tagged, Term.plain_toJson left, Term.plain_toJson right]
  | .bool _ => by simp [Literal.toJson, tagged]

theorem Literal.plain_allToJson :
    ∀ literals : List Literal, (Json.array (Literal.allToJson literals)).Plain
  | [] => by simp [Literal.allToJson]
  | literal :: rest => by
    simp [Literal.allToJson, Literal.plain_toJson literal, Literal.plain_allToJson rest]

theorem Atom.plain_toJson : ∀ atom : Atom, atom.toJson.Plain
  | ⟨name, arguments⟩ => by
    simp [Atom.toJson, name.plain_toJson, Term.plain_allToJson arguments]

end

/-- Clauses are written with whole numbers and texts only. -/
theorem Clause.plain_toJson (clause : Clause) : clause.toJson.Plain := by
  simp [Clause.toJson, clause.head.plain_toJson, Literal.plain_allToJson clause.body]

end DatalogStrata
