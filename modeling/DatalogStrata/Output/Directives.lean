import DatalogStrata.Declaration

/-!
# Output directives

How a relation is written out is configured by directives, texts under keys. They are listed by
key.

## Main definitions

* `Directives` — the directives for one relation
* `Directives.set`, `Directives.get?` — store and look up a directive
* `Directives.withRelation` — name and columns taken from a declaration
* `Directives.delimiter`, `Directives.header?`, … — what the directives mean
-/

namespace DatalogStrata

/-- Texts under keys, in the order of the keys. -/
structure Directives where
  entries : List (String × String)
deriving DecidableEq, Repr

namespace Directives

/-- No directives. -/
def empty : Directives :=
  ⟨[]⟩

/-- Store a text among entries in the order of their keys; a key that is there gets the new
text. -/
def store (key value : String) : List (String × String) → List (String × String)
  | [] => [(key, value)]
  | entry :: rest =>
    if key < entry.1 then (key, value) :: entry :: rest
    else if key = entry.1 then (key, value) :: rest
    else entry :: store key value rest

/-- Store a directive. -/
def set (directives : Directives) (key value : String) : Directives :=
  ⟨store key value directives.entries⟩

/-- The directives with the given texts under the given keys. -/
def ofList (entries : List (String × String)) : Directives :=
  entries.foldl (fun directives entry => directives.set entry.1 entry.2) empty

/-- The text under a key. -/
def get? (directives : Directives) (key : String) : Option String :=
  (directives.entries.find? fun entry => entry.1 = key).map Prod.snd

/-- Whether there is a text under a key. -/
def has (directives : Directives) (key : String) : Bool :=
  (directives.get? key).isSome

/-- The name of the relation, empty unless it is given. -/
def relationName (directives : Directives) : String :=
  (directives.get? "name").getD ""

/-- What stands between values, a tab unless something else is given. -/
def delimiter (directives : Directives) : String :=
  (directives.get? "delimiter").getD "\t"

/-- The line of column names, if one is asked for. -/
def header? (directives : Directives) : Option String :=
  if directives.get? "headers" = some "true" then
    some ((directives.get? "attributeNames").getD "")
  else
    none

/-- Whether the output is compressed; any text under the key asks for it. -/
def compress (directives : Directives) : Bool :=
  directives.has "compress"

/-- Take name and columns from a declaration. The columns are joined by the delimiter in effect. -/
def withRelation (directives : Directives) (declaration : Declaration) : Directives :=
  let columns := declaration.attributeNames directives.delimiter
  (directives.set "name" declaration.name.text).set "attributeNames" columns

/-- The directives between braces. -/
def text (directives : Directives) : String :=
  let entries := directives.entries.map fun entry => entry.1 ++ "=" ++ entry.2
  "\x7b" ++ ",".intercalate entries ++ "\x7d"

end Directives

end DatalogStrata
