import DatalogStrata.Json.Reader
import DatalogStrata.Json.Writer
import Mathlib.Data.List.Basic

/-!
# Assembling a value from its tokens

The tokens of a value lead the assembler from where a value must come to where it goes on after
that value, whatever containers are open around it. For items and members the same holds with the
part already read in the state of the assembler.

## Main results

* `Json.foldlM_tokens` — what the tokens of a value do to the assembler
* `Json.ofTokens?_tokens` — the tokens of a value write that value
-/

namespace DatalogStrata.Json

open Assembler (supply)

/-- No value starts with a bracket that closes an array, so the first item of an array is read as
any value is. -/
theorem foldlM_tokens_atFirstItem (value : Json) (outer : List Frame) :
    value.tokens.foldlM Assembler.step? (.atFirstItem outer) =
      value.tokens.foldlM Assembler.step? (.atValue (.array [] :: outer)) := by
  cases value <;> rw [tokens] <;> rfl

theorem foldlM_itemTokens_atFirstItem (items : List Json) (outer : List Frame)
    (some_item : items ≠ []) :
    (itemTokens items).foldlM Assembler.step? (.atFirstItem outer) =
      (itemTokens items).foldlM Assembler.step? (.atValue (.array [] :: outer)) := by
  match items, some_item with
  | [item], _ => rw [itemTokens, foldlM_tokens_atFirstItem]
  | item :: next :: rest, _ =>
    simp only [itemTokens, List.foldlM_append, foldlM_tokens_atFirstItem]

/-- The first key of an object is read as any key is. -/
theorem foldlM_memberTokens_atFirstKey (members : List (List Piece × Json)) (outer : List Frame)
    (some_member : members ≠ []) :
    (memberTokens members).foldlM Assembler.step? (.atFirstKey outer) =
      (memberTokens members).foldlM Assembler.step? (.atKey [] outer) := by
  match members, some_member with
  | [(key, value)], _ => rw [memberTokens]; rfl
  | (key, value) :: next :: rest, _ => simp only [memberTokens]; rfl

/-- After its key, the rest of a member is a colon and a value. -/
theorem foldlM_keyed (key : List Piece) (rest : List Token) (done : List (List Piece × Json))
    (outer : List Frame) :
    (Token.string key :: Token.colon :: rest).foldlM Assembler.step? (.atKey done outer) =
      rest.foldlM Assembler.step? (.atValue (.object done key :: outer)) := rfl

mutual

/-- The tokens of a value complete that value. -/
theorem foldlM_tokens : ∀ (value : Json) (frames : List Frame),
    value.tokens.foldlM Assembler.step? (.atValue frames) = some (supply value frames)
  | .null, _ => by rw [tokens]; rfl
  | .bool _, _ => by rw [tokens]; rfl
  | .number _, _ => by rw [tokens]; rfl
  | .string _, _ => by rw [tokens]; rfl
  | .array [], _ => by rw [tokens, itemTokens]; rfl
  | .array (item :: rest), frames => by
    have inside := foldlM_itemTokens (item :: rest) [] frames (List.cons_ne_nil item rest)
    rw [← foldlM_itemTokens_atFirstItem _ _ (List.cons_ne_nil item rest), List.append_nil] at inside
    rw [tokens, List.cons_append, List.foldlM_cons]
    change List.foldlM _ (Assembler.atFirstItem frames) _ = _
    rw [List.foldlM_append, inside]
    change some (supply (.array (item :: rest).reverse.reverse) frames) = _
    rw [List.reverse_reverse]
  | .object [], _ => by rw [tokens, memberTokens]; rfl
  | .object (member :: rest), frames => by
    have inside := foldlM_memberTokens (member :: rest) [] frames (List.cons_ne_nil member rest)
    rw [← foldlM_memberTokens_atFirstKey _ _ (List.cons_ne_nil member rest), List.append_nil]
      at inside
    rw [tokens, List.cons_append, List.foldlM_cons]
    change List.foldlM _ (Assembler.atFirstKey frames) _ = _
    rw [List.foldlM_append, inside]
    change some (supply (.object (member :: rest).reverse.reverse) frames) = _
    rw [List.reverse_reverse]

/-- The tokens of items add them to the items of the array. -/
theorem foldlM_itemTokens : ∀ (items done : List Json) (outer : List Frame), items ≠ [] →
    (itemTokens items).foldlM Assembler.step? (.atValue (.array done :: outer)) =
      some (.afterItem (items.reverse ++ done) outer)
  | [item], done, outer, _ => by
    rw [itemTokens, foldlM_tokens item]
    rfl
  | item :: next :: rest, done, outer, _ => by
    have later := foldlM_itemTokens (next :: rest) (item :: done) outer (List.cons_ne_nil next rest)
    simp only [itemTokens, List.foldlM_append, foldlM_tokens item]
    rw [List.reverse_cons, List.append_assoc]
    exact later

/-- The tokens of members add them to the members of the object. -/
theorem foldlM_memberTokens : ∀ (members done : List (List Piece × Json)) (outer : List Frame),
    members ≠ [] →
    (memberTokens members).foldlM Assembler.step? (.atKey done outer) =
      some (.afterMember (members.reverse ++ done) outer)
  | [(key, value)], done, outer, _ => by
    rw [memberTokens, foldlM_keyed, foldlM_tokens value]
    rfl
  | (key, value) :: next :: rest, done, outer, _ => by
    have later := foldlM_memberTokens (next :: rest) ((key, value) :: done) outer
      (List.cons_ne_nil next rest)
    simp only [memberTokens, List.cons_append, foldlM_keyed, List.foldlM_append,
      foldlM_tokens value]
    rw [List.reverse_cons, List.append_assoc]
    exact later

end

/-- The tokens of a value write that value. -/
theorem ofTokens?_tokens (value : Json) : ofTokens? value.tokens = some value := by
  rw [ofTokens?, foldlM_tokens]
  rfl

end DatalogStrata.Json
