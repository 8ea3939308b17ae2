import DatalogStrata.Proofs.Json.Assembly
import DatalogStrata.Proofs.Json.Scanning

/-!
# Reading back what was written

Values whose numbers are whole and whose strings and keys are texts are written as texts that are
read as these values. Of the other values this cannot hold: a number may carry any spelling.

## Main definitions

* `Json.Plain` — values with whole numbers and texts only

## Main results

* `Json.Plain.parse?_render` — the text of a plain value is read as that value
-/

namespace DatalogStrata.Json

/-- The numbers of the value are whole, its strings and its keys are texts. -/
inductive Plain : Json → Prop
  | null : Plain .null
  | bool (value : Bool) : Plain (.bool value)
  | whole (value : Int) : Plain (.number (.whole value))
  | text (value : String) : Plain (.text value)
  | array {items : List Json} (plain : ∀ item ∈ items, Plain item) : Plain (.array items)
  | object {members : List (List Piece × Json)}
      (keys : ∀ member ∈ members, ∃ key, member.1 = contentOf key)
      (values : ∀ member ∈ members, Plain member.2) : Plain (.object members)

section

variable {value : Json} {items : List Json} {members : List (List Piece × Json)}

attribute [simp] Plain.null Plain.bool Plain.whole Plain.text

@[simp]
theorem plain_array_nil : (Json.array []).Plain :=
  .array (by simp)

@[simp]
theorem plain_array_cons : (Json.array (value :: items)).Plain ↔
    value.Plain ∧ (Json.array items).Plain := by
  constructor
  · intro plain
    cases plain with
    | array plain =>
      rw [List.forall_mem_cons] at plain
      exact ⟨plain.1, .array plain.2⟩
  · rintro ⟨first, rest⟩
    cases rest with
    | array plain => exact .array (List.forall_mem_cons.2 ⟨first, plain⟩)

@[simp]
theorem plain_object_nil : (Json.object []).Plain :=
  .object (by simp) (by simp)

@[simp]
theorem plain_object_cons {key : String} : (Json.object (member key value :: members)).Plain ↔
    value.Plain ∧ (Json.object members).Plain := by
  constructor
  · intro plain
    cases plain with
    | object keys values =>
      rw [List.forall_mem_cons] at keys values
      exact ⟨values.1, .object keys.2 values.2⟩
  · rintro ⟨first, rest⟩
    cases rest with
    | object keys values =>
      exact .object (List.forall_mem_cons.2 ⟨⟨key, rfl⟩, keys⟩)
        (List.forall_mem_cons.2 ⟨first, values⟩)

theorem plain_array_map {α : Type} {encode : α → Json} {items : List α}
    (plain : ∀ item ∈ items, (encode item).Plain) : (Json.array (items.map encode)).Plain := by
  refine .array ?_
  rw [List.forall_mem_map]
  exact plain

end

/-! ## Scanning -/

theorem legible_itemTokens : ∀ items : List Json, (∀ item ∈ items, Legible item.tokens) →
    Legible (itemTokens items)
  | [], _ => Closed.nil.legible
  | [item], legible => by
    rw [itemTokens]
    exact legible item List.mem_cons_self
  | item :: next :: rest, legible => by
    have later := legible_itemTokens (next :: rest) fun other mem =>
      legible other (List.mem_cons_of_mem item mem)
    have first := (legible item List.mem_cons_self).punctuate .comma (by decide)
    rw [itemTokens, List.append_cons]
    · exact first.append later
    · exact List.cons_ne_nil next rest

/-- The tokens before the value of a member. -/
theorem closed_key {key : List Piece} (text : ∃ name, key = contentOf name) :
    Closed [.string key, .colon] := by
  obtain ⟨name, rfl⟩ := text
  exact (closed_text name).append_closed (.punctuation .colon (by decide))

theorem legible_memberTokens : ∀ members : List (List Piece × Json),
    (∀ member ∈ members, ∃ name, member.1 = contentOf name) →
    (∀ member ∈ members, Legible member.2.tokens) → Legible (memberTokens members)
  | [], _, _ => Closed.nil.legible
  | [(key, value)], keys, legible => by
    rw [memberTokens]
    exact (closed_key (keys _ List.mem_cons_self)).append (legible _ List.mem_cons_self)
  | (key, value) :: next :: rest, keys, legible => by
    have later := legible_memberTokens (next :: rest)
      (fun other mem => keys other (List.mem_cons_of_mem _ mem))
      (fun other mem => legible other (List.mem_cons_of_mem _ mem))
    have keyed := (closed_key (keys _ List.mem_cons_self)).append (legible _ List.mem_cons_self)
    have first := keyed.punctuate .comma (by decide)
    rw [memberTokens, List.append_cons]
    · exact first.append later
    · exact List.cons_ne_nil next rest

namespace Plain

variable {value : Json}

/-- The scanner finds the tokens of a plain value in their spellings. -/
theorem legible_tokens (plain : value.Plain) : Legible value.tokens := by
  induction plain with
  | null => exact legible_null
  | bool value => exact legible_bool value
  | whole value => exact legible_whole value
  | text value => exact (closed_text value).legible
  | array _ legible =>
    have opened := Closed.punctuation .openBracket (by decide)
    rw [tokens]
    have items := opened.append (legible_itemTokens _ legible)
    exact (items.punctuate .closeBracket (by decide)).legible
  | object keys _ legible =>
    have opened := Closed.punctuation .openBrace (by decide)
    rw [tokens]
    have members := opened.append (legible_memberTokens _ keys legible)
    exact (members.punctuate .closeBrace (by decide)).legible

/-- The text of a plain value is read as that value. -/
theorem parse?_render (plain : value.Plain) : parse? value.render = some value := by
  rw [parse?, render, String.toList_ofList, plain.legible_tokens.scan?_eq, Option.bind_some,
    ofTokens?_tokens]

end Plain

end DatalogStrata.Json
