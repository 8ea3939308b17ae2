import DatalogStrata.Json.Basic

/-!
# Reading data from JSON values

Decoders for the common shapes of data. Each takes a budget: how many containers may still be
entered on the way down. Entering an array or an object spends one; values that nobody asks for
are skipped and spend nothing.

A structure may be written as an object, in any order and with members nobody knows, or as an
array of its fields in order. A choice between kinds is an object whose only member is named for
the kind; a kind without content may also be its name as a string.

## Main definitions

* `Json.asText?`, `Json.asBool?`, `Json.asList?` — plain data
* `Json.fields?` — the fields of a structure, by name or by place
* `Json.choice?` — the kind and content of a choice
-/

namespace DatalogStrata.Json

/-- The text of a string. -/
def asText? : Json → Option String
  | .string content => textOf? content
  | _ => none

/-- A truth value. -/
def asBool? : Json → Option Bool
  | .bool value => some value
  | _ => none

/-- A list, with each item read by a decoder that has one container less to spend. -/
def asList? {α : Type} (item? : Nat → Json → Option α) : Nat → Json → Option (List α)
  | budget + 1, .array items => items.mapM (item? budget)
  | _, _ => none

/-- The values of the members with a given key. -/
def valuesOf (key : String) (members : List (String × Json)) : List Json :=
  (members.filter fun member => member.1 = key).map Prod.snd

/-- The value of the only member with a given key, none if there is no such member; two members
with one key are an error. -/
def single? (members : List (String × Json)) (key : String) : Option (Option Json) :=
  match valuesOf key members with
  | [] => some none
  | [value] => some (some value)
  | _ => none

/-- The members of an object, with their keys as texts. -/
def namedMembers? (members : List (List Piece × Json)) : Option (List (String × Json)) :=
  members.mapM fun member => (textOf? member.1).map fun key => (key, member.2)

/-- The fields of a structure, in the order of the given names, each with its value if it is
there. An object may hold other members, but none of these fields twice; an array holds the first
fields by place. -/
def fields? (names : List String) : Json → Option (List (Option Json))
  | .object members => (namedMembers? members).bind fun named => names.mapM (single? named)
  | .array items =>
    -- Places past the end of the array are fields that are absent.
    if items.length ≤ names.length then
      some (items.map some ++ List.replicate (names.length - items.length) none)
    else
      none
  | _ => none

/-- The kind and content of a choice written as an object. -/
def choice? : Json → Option (String × Json)
  | .object [(key, value)] => (textOf? key).map fun kind => (kind, value)
  | _ => none

/-- The kind of a choice without content: a string, or an object with a null. -/
def bareChoice? : Nat → Json → Option String
  | _, .string content => textOf? content
  | _ + 1, value =>
    (choice? value).bind fun (kind, content) =>
      match content with
      | .null => some kind
      | _ => none
  | _, _ => none

/-- A field with a default: the default stands in when the field is absent. -/
def orDefault {α : Type} (default : α) (decode? : Json → Option α) : Option Json → Option α
  | none => some default
  | some value => decode? value

end DatalogStrata.Json
