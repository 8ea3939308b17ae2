import DatalogStrata.Json.Shape
import DatalogStrata.Program.Encode
import DatalogStrata.Proofs.Traversal
import Mathlib.Data.List.Nodup

/-!
# Shapes of data

How the shapes that data is written in are taken apart again: an object with named fields, an object
named for its kind, a list. And how deep they are: what is taken out of a value is less deep than
the value, and a list is written at most one container deeper than it was read when its items are.

## Main definitions

* `Json.depth` — how many containers stand in each other

## Main results

* `Json.fields?_object` — the fields of a structure are found again
* `Json.asList?_map_iff` — a list is read back when its items are and the budget reaches
* `Json.depth_lt_of_fields?`, `Json.depth_lt_of_choice?` — fields and contents are less deep
* `Json.asList?_within`, `Json.default_within` — how deep a list is that was read
-/

namespace DatalogStrata.Json

/-! ## Depth -/

mutual

/-- How many arrays and objects stand in each other. -/
def depth : Json → Nat
  | .null | .bool _ | .number _ | .string _ => 0
  | .array items => itemDepth items + 1
  | .object members => memberDepth members + 1

/-- The depth of the deepest item. -/
def itemDepth : List Json → Nat
  | [] => 0
  | item :: rest => max item.depth (itemDepth rest)

/-- The depth of the deepest value of a member. -/
def memberDepth : List (List Piece × Json) → Nat
  | [] => 0
  | (_, value) :: rest => max value.depth (memberDepth rest)

end

theorem itemDepth_le_iff {items : List Json} {bound : Nat} :
    itemDepth items ≤ bound ↔ ∀ item ∈ items, item.depth ≤ bound := by
  induction items with
  | nil => simp [itemDepth]
  | cons item rest ih => rw [itemDepth, Nat.max_le, ih, List.forall_mem_cons]

theorem memberDepth_le_iff {members : List (List Piece × Json)} {bound : Nat} :
    memberDepth members ≤ bound ↔ ∀ member ∈ members, member.2.depth ≤ bound := by
  induction members with
  | nil => simp [memberDepth]
  | cons member rest ih => rw [memberDepth, Nat.max_le, ih, List.forall_mem_cons]

theorem depth_le_itemDepth {item : Json} {items : List Json} (mem : item ∈ items) :
    item.depth ≤ itemDepth items :=
  itemDepth_le_iff.1 (Nat.le_refl _) item mem

theorem depth_le_memberDepth {member : List Piece × Json} {members : List (List Piece × Json)}
    (mem : member ∈ members) : member.2.depth ≤ memberDepth members :=
  memberDepth_le_iff.1 (Nat.le_refl _) member mem

@[simp]
theorem depth_text (content : String) : (text content).depth = 0 := by
  rw [text, depth]

theorem depth_array (items : List Json) : (Json.array items).depth = itemDepth items + 1 := by
  rw [depth]

/-- The depth of a structure is that of its fields and one more. -/
@[simp]
theorem memberDepth_cons (key : String) (value : Json) (rest : List (List Piece × Json)) :
    memberDepth (member key value :: rest) = max value.depth (memberDepth rest) := by
  rw [member, memberDepth]

@[simp]
theorem memberDepth_nil : memberDepth [] = 0 := by
  rw [memberDepth]

/-! ## Shapes -/

@[simp]
theorem textOf?_contentOf (content : String) : textOf? (contentOf content) = some content := by
  have chars : ∀ text : List Char, (text.map Piece.char).mapM textOf?.char? = some text := by
    intro text
    induction text with
    | nil => rfl
    | cons c rest ih => simp [ih, textOf?.char?]
  rw [textOf?, contentOf, chars, Option.map_some, String.ofList_toList]

@[simp]
theorem asText?_text (content : String) : asText? (text content) = some content :=
  textOf?_contentOf content

@[simp]
theorem choice?_member (kind : String) (value : Json) :
    choice? (.object [member kind value]) = some (kind, value) := by
  simp [choice?, member]

/-- A list is read back when each of its items is. -/
theorem mapM_map_eq_some_iff {α : Type} {encode : α → Json} {decode? : Json → Option α}
    {items : List α} :
    (items.map encode).mapM decode? = some items ↔
      ∀ item ∈ items, decode? (encode item) = some item := by
  rw [mapM_eq_some_iff, List.forall₂_map_left_iff, List.forall₂_same]

theorem namedMembers?_map_member (fields : List (String × Json)) :
    namedMembers? (fields.map fun field => member field.1 field.2) = some fields := by
  rw [namedMembers?, mapM_eq_some_iff, List.forall₂_map_left_iff, List.forall₂_same]
  intro field _
  simp [member]

/-- Under distinct names every field is the only one of its name. -/
theorem single?_of_mem {fields : List (String × Json)} {field : String × Json}
    (distinct : (fields.map Prod.fst).Nodup) (mem : field ∈ fields) :
    single? fields field.1 = some (some field.2) := by
  have only : valuesOf field.1 fields = [field.2] := by
    induction fields with
    | nil => cases mem
    | cons first rest ih =>
      rw [List.map_cons, List.nodup_cons] at distinct
      obtain ⟨fresh, distinct⟩ := distinct
      rw [List.mem_cons] at mem
      obtain rfl | mem := mem
      · have others : ∀ other ∈ rest, ¬other.1 = field.1 :=
          fun other held same => fresh (same ▸ List.mem_map_of_mem held)
        simpa [valuesOf] using others
      · have other : ¬first.1 = field.1 := fun same => fresh (same ▸ List.mem_map_of_mem mem)
        simpa [valuesOf, other] using ih distinct mem
  rw [single?, only]

/-- The fields of a structure that is written as an object are found again. -/
theorem fields?_object (fields : List (String × Json)) (distinct : (fields.map Prod.fst).Nodup) :
    fields? (fields.map Prod.fst) (.object (fields.map fun field => member field.1 field.2)) =
      some (fields.map fun field => some field.2) := by
  rw [fields?, namedMembers?_map_member, Option.bind_some, mapM_eq_some_iff,
    List.forall₂_map_left_iff, List.forall₂_map_right_iff, List.forall₂_same]
  exact fun field mem => single?_of_mem distinct mem

theorem fields?_pair {first second : String} (distinct : first ≠ second) (x y : Json) :
    fields? [first, second] (.object [member first x, member second y]) = some [some x, some y] :=
  fields?_object [(first, x), (second, y)] (by simpa using distinct)

theorem fields?_triple {first second third : String} (distinct : [first, second, third].Nodup)
    (x y z : Json) :
    fields? [first, second, third]
        (.object [member first x, member second y, member third z]) =
      some [some x, some y, some z] :=
  fields?_object [(first, x), (second, y), (third, z)] distinct

/-- A list is read back when its items are and the budget reaches for all of them. -/
theorem asList?_map_iff {α : Type} {P : α → Prop} {encode : α → Json}
    {decode? : Nat → Json → Option α} (each : ∀ item budget,
      decode? budget (encode item) = some item ↔ (encode item).depth ≤ budget ∧ P item)
    (items : List α) (budget : Nat) :
    asList? decode? budget (.array (items.map encode)) = some items ↔
      (Json.array (items.map encode)).depth ≤ budget ∧ ∀ item ∈ items, P item := by
  cases budget with
  | zero => simp [asList?, depth]
  | succ budget =>
    rw [asList?, mapM_map_eq_some_iff, depth_array, Nat.add_le_add_iff_right, itemDepth_le_iff,
      List.forall_mem_map]
    simp only [each, forall_and]

/-! ## What is taken out of a value is less deep -/

theorem depth_lt_of_choice? {value content : Json} {kind : String}
    (chosen : choice? value = some (kind, content)) : content.depth < value.depth := by
  unfold choice? at chosen
  split at chosen
  · simp only [Option.map_eq_some_iff, Prod.mk.injEq] at chosen
    obtain ⟨_, _, _, rfl⟩ := chosen
    simp [depth, memberDepth]
  · cases chosen

theorem mem_of_single? {members : List (String × Json)} {key : String} {field : Json}
    (found : single? members key = some (some field)) : (key, field) ∈ members := by
  unfold single? at found
  split at found
  · cases found
  · next value only =>
    cases found
    have mem : field ∈ valuesOf key members := by rw [only]; exact List.mem_singleton_self field
    simp only [valuesOf, List.mem_map, List.mem_filter, decide_eq_true_eq] at mem
    obtain ⟨⟨name, value⟩, ⟨held, rfl⟩, rfl⟩ := mem
    exact held
  · cases found

theorem depth_lt_of_fields? {value : Json} {names : List String} {values : List (Option Json)}
    (found : fields? names value = some values) {field : Json} (mem : some field ∈ values) :
    field.depth < value.depth := by
  cases value with
  | object members =>
    rw [fields?, Option.bind_eq_some_iff] at found
    obtain ⟨named, keyed, chosen⟩ := found
    obtain ⟨name, _, only⟩ := exists_of_mapM_eq_some chosen mem
    obtain ⟨member, held, same⟩ := exists_of_mapM_eq_some keyed (mem_of_single? only)
    simp only [Option.map_eq_some_iff, Prod.mk.injEq] at same
    obtain ⟨_, _, _, rfl⟩ := same
    rw [depth]
    exact Nat.lt_succ_of_le (depth_le_memberDepth held)
  | array items =>
    rw [fields?] at found
    split at found
    · cases found
      have held : field ∈ items := by simpa using mem
      rw [depth]
      exact Nat.lt_succ_of_le (depth_le_itemDepth held)
    · cases found
  | _ => cases found

/-- Only containers have fields. -/
theorem depth_pos_of_fields? {value : Json} {names : List String} {values : List (Option Json)}
    (found : fields? names value = some values) : 0 < value.depth := by
  cases value with
  | object members => simp [depth]
  | array items => simp [depth]
  | _ => cases found

/-! ## Lists that were read -/

section

variable {α : Type} {P : α → Prop} {encode : α → Json}

/-- When each item has a property and is written at most one container deeper than it was read, this
holds of the list. The items are read with a smaller budget, which lets the items of a nested type
appeal to their own theorem. -/
theorem asList?_within {decode? : Nat → Json → Option α} {budget : Nat} {value : Json}
    {items : List α} (each : ∀ below element item, budget = below + 1 →
      decode? below element = some item →
        P item ∧ (encode item).depth ≤ min below element.depth + 1)
    (read : asList? decode? budget value = some items) :
    (∀ item ∈ items, P item) ∧
      (Json.array (items.map encode)).depth ≤ min budget value.depth + 1 := by
  unfold asList? at read
  split at read
  · next below elements =>
    constructor
    · intro item mem
      obtain ⟨element, _, from_element⟩ := exists_of_mapM_eq_some read mem
      exact (each below element item rfl from_element).1
    · rw [depth_array, depth_array, Nat.add_le_add_iff_right, itemDepth_le_iff,
        List.forall_mem_map]
      intro item mem
      obtain ⟨element, held, from_element⟩ := exists_of_mapM_eq_some read mem
      have written := (each below element item rfl from_element).2
      have deepest := depth_le_itemDepth held
      omega
  · cases read

/-- A list that is empty when its field is absent is written no deeper than the structure that has
the field, unless the structure was as deep as the budget. -/
theorem default_within {list? : Json → Option (List α)} {items : List α} {below depth : Nat}
    (positive : 0 < depth)
    (origin : items = [] ∨ ∃ source, source.depth < depth ∧ list? source = some items)
    (each : ∀ source, list? source = some items → (∀ item ∈ items, P item) ∧
      (Json.array (items.map encode)).depth ≤ min below source.depth + 1) :
    (∀ item ∈ items, P item) ∧
      (Json.array (items.map encode)).depth ≤ min (below + 1) depth := by
  obtain rfl | ⟨source, shallower, read⟩ := origin
  · have empty : (Json.array ([].map encode)).depth = 1 := rfl
    exact ⟨by simp, by omega⟩
  · obtain ⟨proper, written⟩ := each source read
    exact ⟨proper, by omega⟩

end

end DatalogStrata.Json
