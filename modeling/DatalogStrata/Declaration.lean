import DatalogStrata.Name

/-!
# Relation declarations

A declaration gives a relation its name and its columns. Declarations are referred to by their
place in the program, so comparing two references compares declaration order.

## Main definitions

* `AttributeType` — the type of a column: one of four primitive types or a type named by the user
* `Attribute`, `Declaration` — a column and a declared relation
* `RelationId` — a reference to a declaration by its place
-/

namespace DatalogStrata

/-- The type of a column. -/
inductive AttributeType where
  | number
  | unsigned
  | float
  | symbol
  /-- A type declared elsewhere, known by name only. -/
  | named (name : String)
deriving DecidableEq, Repr

namespace AttributeType

/-- The four primitive types have keywords; every other text names a type. -/
def parse (text : String) : AttributeType :=
  if text = "number" then .number
  else if text = "unsigned" then .unsigned
  else if text = "float" then .float
  else if text = "symbol" then .symbol
  else .named text

/-- The keyword of a primitive type, or the name of any other. -/
def text : AttributeType → String
  | number => "number"
  | unsigned => "unsigned"
  | float => "float"
  | symbol => "symbol"
  | named name => name

/-- Whether the type is known by name only. -/
def isNamed : AttributeType → Bool
  | named _ => true
  | _ => false

end AttributeType

/-- A column of a relation. -/
structure Attribute where
  name : String
  type : AttributeType
deriving DecidableEq, Repr

/-- A declared relation. -/
structure Declaration where
  name : Name
  attributes : List Attribute
deriving DecidableEq, Repr

namespace Declaration

/-- The number of columns. -/
def arity (declaration : Declaration) : Nat :=
  declaration.attributes.length

/-- The column names with a delimiter between neighbours. -/
def attributeNames (declaration : Declaration) (delimiter : String) : String :=
  delimiter.intercalate (declaration.attributes.map Attribute.name)

/-- A declaration as it stands in program text: `.decl edge(x: number, y: number)`. -/
def text (declaration : Declaration) : String :=
  let columns := declaration.attributes.map fun a => a.name ++ ": " ++ a.type.text
  ".decl " ++ declaration.name.text ++ "(" ++ ", ".intercalate columns ++ ")"

end Declaration

/-- A reference to a declaration by its place in the program. -/
structure RelationId where
  index : Nat
deriving DecidableEq, Repr

namespace RelationId

instance : LT RelationId := ⟨fun a b => a.index < b.index⟩

instance : DecidableRel (α := RelationId) (· < ·) :=
  fun a b => inferInstanceAs (Decidable (a.index < b.index))

instance : LE RelationId := ⟨fun a b => a.index ≤ b.index⟩

instance : DecidableRel (α := RelationId) (· ≤ ·) :=
  fun a b => inferInstanceAs (Decidable (a.index ≤ b.index))

/-- The short form, `#3`, which also stands in for the name of an undeclared relation. -/
def text (id : RelationId) : String :=
  "#" ++ toString id.index

/-- The long form, `RelationId(3)`, used in debug records. -/
def longText (id : RelationId) : String :=
  "RelationId(" ++ toString id.index ++ ")"

/-- Relations in declaration order. -/
def sort (ids : List RelationId) : List RelationId :=
  ids.mergeSort (fun a b => decide (a ≤ b))

end RelationId

end DatalogStrata
