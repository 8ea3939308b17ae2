import DatalogStrata.Text

/-!
# Qualified relation names

A relation is named by a sequence of segments, written with a dot between them: `graph.edge` is
the relation `edge` of the component `graph`. The written form drops empty segments, so `.a..b`
and `a.b` are the same name.

## Main definitions

* `Name` — a name as its list of segments
* `Name.parse` — the name that a text writes
* `Name.text` — the text of a name
-/

namespace DatalogStrata

/-- A relation name as its list of segments. -/
structure Name where
  segments : List String
deriving DecidableEq, Repr

namespace Name

/-- The name written by a text: its non-empty pieces between dots. -/
def parse (text : String) : Name :=
  ⟨((splitAt '.' text.toList).filter (fun piece => !piece.isEmpty)).map String.ofList⟩

/-- The segments with a dot between neighbours. -/
def text (name : Name) : String :=
  ".".intercalate name.segments

/-- A name without segments. -/
def isEmpty (name : Name) : Bool :=
  name.segments.isEmpty

/-- Names are ordered by their segment lists, and segments by their characters. -/
instance : LT Name := ⟨fun a b => a.segments < b.segments⟩

instance : DecidableRel (α := Name) (· < ·) :=
  fun a b => inferInstanceAs (Decidable (a.segments < b.segments))

instance : LE Name := ⟨fun a b => ¬ b < a⟩

instance : DecidableRel (α := Name) (· ≤ ·) :=
  fun a b => inferInstanceAs (Decidable (¬ b < a))

end Name

end DatalogStrata
