/-!
# Nesting of patterns

A pattern is a tree: groups, classes, repetitions, and whatever stands side by side. How deep the
tree is follows from what has been read so far, without the tree itself. Characters and all else
that has no parts has no depth; one node by itself stands for itself, and several side by side make
a node of their own.

## Main definitions

* `Pattern.Siblings` — nodes side by side
* `Pattern.Alternatives`, `Pattern.Members` — what is read of a group and of a class
* `Pattern.nestingLimit` — how deep a pattern may be
-/

namespace DatalogStrata.Pattern

/-- How deep a pattern may be. -/
def nestingLimit : Nat := 250

/-- Nodes side by side: how many there are, and the depth of the deepest. -/
structure Siblings where
  count : Nat
  deepest : Nat
deriving DecidableEq, Repr

namespace Siblings

/-- No nodes. -/
def none : Siblings :=
  ⟨0, 0⟩

/-- Put a node with a given depth beside the others. -/
def add (siblings : Siblings) (depth : Nat) : Siblings :=
  ⟨siblings.count + 1, max siblings.deepest depth⟩

/-- The depth of the nodes taken together. -/
def depth (siblings : Siblings) : Nat :=
  if siblings.count ≤ 1 then siblings.deepest else siblings.deepest + 1

end Siblings

/-- The depth of something that joins what came before, if anything, with what comes last. -/
def joinedDepth (before : Option Nat) (last : Nat) : Nat :=
  match before with
  | none => last
  | some depth => max depth last + 1

/-- What has been read of a group: the items of the last alternative, and the alternatives before
it. -/
structure Alternatives where
  items : Siblings
  /-- The depth of the last item, if that is something to repeat. -/
  repeatable : Option Nat
  /-- The depth of the deepest alternative before the last one, if there is any. -/
  before : Option Nat
deriving DecidableEq, Repr

namespace Alternatives

/-- A group of which nothing has been read. -/
def empty : Alternatives :=
  ⟨.none, none, none⟩

/-- Add an item. -/
def add (read : Alternatives) (depth : Nat) : Alternatives :=
  { read with items := read.items.add depth, repeatable := some depth }

/-- Add flags, which are an item that cannot be repeated. -/
def addFlags (read : Alternatives) : Alternatives :=
  { read with items := read.items.add 0, repeatable := none }

/-- Repeat the last item. -/
def repeat? (read : Alternatives) : Option Alternatives :=
  read.repeatable.map fun depth =>
    { read with
      items := { read.items with deepest := max read.items.deepest (depth + 1) }
      repeatable := some (depth + 1) }

/-- Begin another alternative. -/
def another (read : Alternatives) : Alternatives :=
  ⟨.none, none, some (max (read.before.getD 0) read.items.depth)⟩

/-- The depth of all alternatives together. -/
def depth (read : Alternatives) : Nat :=
  joinedDepth read.before read.items.depth

end Alternatives

/-- What has been read of a class: the items after the last operator, and what stands before it. -/
structure Members where
  items : Siblings
  /-- The depth of all that stands before the last operator, if there is any. -/
  before : Option Nat
deriving DecidableEq, Repr

namespace Members

/-- A class of which nothing has been read. -/
def empty : Members :=
  ⟨.none, none⟩

/-- Add an item. -/
def add (read : Members) (depth : Nat) : Members :=
  { read with items := read.items.add depth }

/-- The depth of all items and operators together. Each operator joins all that stands before
it. -/
def depth (read : Members) : Nat :=
  joinedDepth read.before read.items.depth

/-- Begin the right side of an operator. -/
def operate (read : Members) : Members :=
  ⟨.none, some read.depth⟩

end Members

end DatalogStrata.Pattern
