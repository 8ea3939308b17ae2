import DatalogStrata.Proofs.Program.Validity

/-!
# Names and how they are written

A text may have dots to spare, and is read as its segments without them. The name that is read has
one dot between its segments and no other, and is read back from this form. Names that are built
rather than read are read back when their segments are such as a text can have.

## Main definitions

* `Name.pieces` — the non-empty pieces of a text between its dots

## Main results

* `Name.parse_eq_parse_iff` — which texts write the same name
* `Program.nodup_texts` — the relations of a program that was read and accepted have different texts
* `Name.one_normal_form` — which names are read, written and read back alike
-/

namespace DatalogStrata

namespace Name

/-- The non-empty pieces of a text between its dots. -/
def pieces (text : String) : List (List Char) :=
  (text.toList.splitOn '.').filter (· ≠ [])

theorem parse_eq (text : String) : parse text = ⟨(pieces text).map String.ofList⟩ := by
  have nonempty : (text.toList.splitOn '.').filter (fun piece => !piece.isEmpty) = pieces text :=
    List.filter_congr fun piece _ => by cases piece <;> rfl
  rw [parse, splitAt_eq_splitOn, nonempty]

/-- Two texts write one name when they have the same pieces. -/
theorem parse_eq_parse_iff {text other : String} :
    parse text = parse other ↔ pieces text = pieces other := by
  rw [parse_eq, parse_eq, mk.injEq]
  exact (List.map_injective_iff.mpr fun _ _ => String.ofList_injective).eq_iff

/-- What is read is read back from its text. -/
theorem parse_text_parse (text : String) : parse (parse text).text = parse text :=
  parse_text_iff.mpr (parse_proper text)

end Name

/-- In a program that was read and accepted, the names of the relations have different texts. -/
theorem Program.nodup_texts {text : String} {program : Program}
    (parsed : parse text = .ok program) :
    (program.declarations.map fun declaration => declaration.name.text).Nodup := by
  obtain ⟨read, sound⟩ := parse_eq_ok_iff.mp parsed
  have proper : ∀ name ∈ program.declarations.map Declaration.name, name.Proper := by
    intro name listed
    obtain ⟨declaration, declared, rfl⟩ := List.mem_map.mp listed
    exact declared_proper read declaration declared
  have distinct := (fault?_eq_none_iff.mp sound).1
  have texts := distinct.map_on fun name listed other otherListed same =>
    (proper name listed).eq_of_text (proper other otherListed) same
  rwa [List.map_map] at texts

/-- A name that is read from a text is read back from its own text, so it has one normal form. Two
texts write the same name exactly if they have the same non-empty pieces between their dots, and
names that are read are told by their texts. A name that is built from segments is read back from
its text exactly if no segment is empty or holds a dot. Hence the relations of a program that was
read and accepted are told by their texts. -/
theorem Name.one_normal_form :
    (∀ text, parse (parse text).text = parse text) ∧
    (∀ text other, parse text = parse other ↔ pieces text = pieces other) ∧
    (∀ text other, (parse text).text = (parse other).text → parse text = parse other) ∧
    (∀ segments, parse (Name.mk segments).text = ⟨segments⟩ ↔
      ∀ segment ∈ segments, segment ≠ "" ∧ '.' ∉ segment.toList) ∧
    ∀ text program, Program.parse text = .ok program →
      (program.declarations.map fun declaration => declaration.name.text).Nodup :=
  ⟨parse_text_parse, fun _ _ => parse_eq_parse_iff,
    fun text other => (parse_proper text).eq_of_text (parse_proper other),
    fun _ => parse_text_iff, fun _ _ => Program.nodup_texts⟩

/-! ## A relation in the component named like another -/

namespace NestedNames

/-- Two relations, the second with more dots than it needs. -/
def text : String :=
  "\x7b\"relations\":[\x7b\"name\":\"a\"\x7d,\x7b\"name\":\".a..b\"\x7d]\x7d"

/-- The program that the text describes. -/
def program : Program :=
  ⟨[⟨⟨["a"]⟩, []⟩, ⟨⟨["a", "b"]⟩, []⟩], []⟩

theorem texts_differ : Program.parse text = .ok program ∧ ["a", "a.b"].Nodup := by
  have parsed : Program.parse text = .ok program := by decide +kernel
  obtain ⟨-, -, -, -, different⟩ := Name.one_normal_form
  exact ⟨parsed, different text program parsed⟩

end NestedNames

end DatalogStrata
