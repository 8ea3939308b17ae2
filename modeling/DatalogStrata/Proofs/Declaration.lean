import DatalogStrata.Declaration
import Mathlib.Data.List.Basic

/-!
# Names and types that are known by their texts

A name is read back from its text exactly when no segment is empty or holds the separator, and a
column type exactly when it is not a named type with the keyword of a primitive one. What is read
from a text is always of this kind.

## Main definitions

* `Name.Proper`, `AttributeType.Proper` — what is told apart by its text

## Main results

* `Name.parse_text_iff`, `AttributeType.parse_text_iff` — what is read back from its text
* `Name.parse_proper`, `AttributeType.parse_proper` — what is read is proper
-/

namespace DatalogStrata

/-! ## Cutting a text -/

theorem splitAt_eq_splitOn (separator : Char) (text : List Char) :
    splitAt separator text = text.splitOn separator := by
  induction text with
  | nil => rfl
  | cons c rest ih =>
    rw [splitAt, List.splitOn_cons_eq_if_modifyHead, ih]
    by_cases same : c = separator
    · simp [same]
    · rw [if_neg same, if_neg (by simpa using same)]
      cases pieces : List.splitOn separator rest with
      | nil => exact absurd pieces (List.splitOn_ne_nil separator rest)
      | cons piece more => rfl

theorem not_mem_of_mem_splitAt {separator : Char} {text piece : List Char}
    (mem : piece ∈ splitAt separator text) : separator ∉ piece := by
  induction text generalizing piece with
  | nil => simp_all [splitAt]
  | cons c rest ih =>
    rw [splitAt] at mem
    by_cases same : c = separator
    · rw [if_pos same, List.mem_cons] at mem
      obtain rfl | mem := mem
      · exact List.not_mem_nil
      · exact ih mem
    · rw [if_neg same] at mem
      have other : separator ≠ c := fun eq => same eq.symm
      cases pieces : splitAt separator rest with
      | nil => simp_all
      | cons first more =>
        rw [pieces] at mem ih
        simp only [List.mem_cons] at mem
        obtain rfl | mem := mem
        · simpa [other] using ih List.mem_cons_self
        · exact ih (List.mem_cons_of_mem first mem)

/-! ## Names -/

namespace Name

/-- Every segment is a text without dots, and none is empty. -/
def Proper (name : Name) : Prop :=
  ∀ segment ∈ name.segments, segment ≠ "" ∧ '.' ∉ segment.toList

theorem parse_proper (text : String) : (parse text).Proper := by
  intro segment mem
  simp only [parse, List.mem_map, List.mem_filter] at mem
  obtain ⟨piece, ⟨mem, nonempty⟩, rfl⟩ := mem
  refine ⟨?_, ?_⟩
  · intro empty
    simp_all
  · rw [String.toList_ofList]
    exact not_mem_of_mem_splitAt mem

theorem toList_text (name : Name) :
    name.text.toList = ['.'].intercalate (name.segments.map String.toList) :=
  String.toList_intercalate

/-- A name is told by its text when it is proper. -/
theorem parse_text_iff {name : Name} : parse name.text = name ↔ name.Proper := by
  constructor
  · intro same
    rw [← same]
    exact parse_proper name.text
  · intro proper
    obtain ⟨segments⟩ := name
    by_cases none : segments = []
    · subst none
      rfl
    have no_dot : ∀ piece ∈ segments.map String.toList, '.' ∉ piece := by
      intro piece mem
      obtain ⟨segment, held, rfl⟩ := List.mem_map.1 mem
      exact (proper segment held).2
    have nonempty : ∀ piece ∈ segments.map String.toList, !piece.isEmpty := by
      intro piece mem
      obtain ⟨segment, held, rfl⟩ := List.mem_map.1 mem
      simpa using (proper segment held).1
    have pieces := List.splitOn_intercalate '.' no_dot (by simpa using none)
    rw [parse, toList_text, splitAt_eq_splitOn, pieces, List.filter_eq_self.2 nonempty]
    simp

/-- Proper names have different texts. -/
theorem Proper.eq_of_text {name other : Name} (proper : name.Proper) (otherProper : other.Proper)
    (same : name.text = other.text) : name = other := by
  rw [← parse_text_iff.mpr proper, same, parse_text_iff.mpr otherProper]

end Name

/-! ## Column types -/

namespace AttributeType

/-- The texts that stand for the primitive types. -/
def keywords : List String :=
  ["number", "unsigned", "float", "symbol"]

/-- The type does not bear the keyword of a primitive type as its name. -/
def Proper (type : AttributeType) : Prop :=
  ∀ name, type = named name → name ∉ keywords

theorem parse_eq_named {text : String} (other : text ∉ keywords) : parse text = named text := by
  simp_all [keywords, parse]

theorem parse_proper (text : String) : (parse text).Proper := by
  intro name same
  by_cases keyword : text ∈ keywords
  · simp only [keywords, List.mem_cons, List.not_mem_nil, or_false] at keyword
    obtain rfl | rfl | rfl | rfl := keyword
    all_goals cases same
  · rw [parse_eq_named keyword] at same
    cases same
    exact keyword

/-- A type is told by its text when it is proper. -/
theorem parse_text_iff {type : AttributeType} : parse type.text = type ↔ type.Proper := by
  constructor
  · intro same
    rw [← same]
    exact parse_proper type.text
  · intro proper
    cases type with
    | named name => exact parse_eq_named (proper name rfl)
    | _ => rfl

end AttributeType

end DatalogStrata
