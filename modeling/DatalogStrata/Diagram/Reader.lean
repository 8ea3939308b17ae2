import DatalogStrata.Diagram.Dot
import Mathlib.Data.List.Basic

/-!
# Reading DOT text back

The text of a graph is read back line by line. A name ends at the first quote that no backslash
escapes, whatever the name is made of, and what follows the first name of a line tells an edge from
a node.

## Main definitions

* `Dot.readEscaped?`, `Dot.readName?` — a text up to its closing quote, and a quoted text
* `Dot.Statement`, `Dot.readStatement?` — the line of a node or of an edge
* `Dot.read?` — the nodes and the edges of a text
-/

namespace DatalogStrata

namespace Dot

/-- Read an expected text. What follows it is left. -/
def expect? (expected : String) (text : List Char) : Option (List Char) :=
  expected.toList.isPrefixOf? text

/-- Read up to the first quote that is not escaped. What follows the quote is left. -/
def readEscaped? : List Char → Option (List Char × List Char)
  | [] => none
  | '"' :: rest => some ([], rest)
  | '\\' :: c :: rest => (readEscaped? rest).map fun (name, rest) => (c :: name, rest)
  | c :: rest => (readEscaped? rest).map fun (name, rest) => (c :: name, rest)

/-- Read a quoted text. -/
def readName? (text : List Char) : Option (String × List Char) := do
  let (name, rest) ← readEscaped? (← expect? "\"" text)
  return (String.ofList name, rest)

/-- A line of a graph. -/
inductive Statement where
  | node (name : String)
  | edge (joined : Edge String)
deriving DecidableEq, Repr

namespace Statement

/-- The statement as a line. -/
def text : Statement → String
  | .node name => Dot.node name
  | .edge joined => Dot.edge joined.source joined.target joined.polarity

/-- The name on the line of a node. -/
def node? : Statement → Option String
  | .node name => some name
  | .edge _ => none

/-- The edge on the line of an edge. -/
def edge? : Statement → Option (Edge String)
  | .node _ => none
  | .edge joined => some joined

end Statement

/-- Read the style of an edge, which tells its sign. -/
def readSign (text : List Char) : Polarity × List Char :=
  match expect? (edgeStyle .negative) text with
  | some rest => (.negative, rest)
  | none => (.positive, text)

/-- Read a line. -/
def readStatement? (text : List Char) : Option (Statement × List Char) := do
  let (name, text) ← readName? (← expect? "\t" text)
  match expect? " -> " text with
  | some text =>
    let (target, text) ← readName? text
    let (sign, text) := readSign text
    return (.edge ⟨name, target, sign⟩, ← expect? ";\n" text)
  | none =>
    let (_, text) ← readName? (← expect? " [label = " text)
    return (.node name, ← expect? "];\n" text)

/-! ## Lines one after another

Every line takes something from the text, so reading them comes to an end. -/

theorem length_le_of_expect? {expected : String} {text rest : List Char}
    (read : expect? expected text = some rest) : rest.length ≤ text.length := by
  rw [expect?, List.isPrefixOf?_eq_some_iff_append_eq] at read
  rw [← read, List.length_append]
  exact Nat.le_add_left _ _

theorem length_lt_of_readEscaped? {text name rest : List Char}
    (read : readEscaped? text = some (name, rest)) : rest.length < text.length := by
  induction text using readEscaped?.induct generalizing name with
  | case1 => simp [readEscaped?] at read
  | case2 => simp_all [readEscaped?]
  | case3 c text ih | case4 c text _ _ ih =>
    simp only [readEscaped?, Option.map_eq_some_iff, Prod.exists, Prod.mk.injEq] at read
    obtain ⟨name, _, inner, -, rfl⟩ := read
    have := ih inner
    grind

theorem length_lt_of_readName? {text rest : List Char} {name : String}
    (read : readName? text = some (name, rest)) : rest.length < text.length := by
  simp only [readName?, Option.bind_eq_bind, Option.bind_eq_some_iff, Prod.exists] at read
  obtain ⟨inner, quoted, _, _, escaped, same⟩ := read
  cases same
  exact Nat.lt_of_lt_of_le (length_lt_of_readEscaped? escaped) (length_le_of_expect? quoted)

theorem length_readSign_le (text : List Char) : (readSign text).2.length ≤ text.length := by
  unfold readSign
  split
  · next read => exact length_le_of_expect? read
  · exact Nat.le_refl _

theorem length_lt_of_readStatement? {text rest : List Char} {statement : Statement}
    (read : readStatement? text = some (statement, rest)) : rest.length < text.length := by
  simp only [readStatement?, Option.bind_eq_bind, Option.bind_eq_some_iff, Prod.exists] at read
  obtain ⟨start, begun, name, afterName, named, read⟩ := read
  have taken := Nat.lt_of_lt_of_le (length_lt_of_readName? named) (length_le_of_expect? begun)
  split at read
  · next afterArrow arrow =>
    simp only [Option.bind_eq_some_iff, Prod.exists] at read
    obtain ⟨target, afterTarget, aimed, rest, closed, same⟩ := read
    cases same
    have := length_le_of_expect? arrow
    have := length_lt_of_readName? aimed
    have := length_readSign_le afterTarget
    have := length_le_of_expect? closed
    omega
  · simp only [Option.bind_eq_some_iff, Prod.exists] at read
    obtain ⟨afterLabel, labelled, _, afterName, _, rest, closed, same⟩ := read
    cases same
    have := length_le_of_expect? labelled
    have := length_lt_of_readName? ‹_›
    have := length_le_of_expect? closed
    omega

/-- Read lines as long as there are any. -/
def readStatements (text : List Char) : List Statement × List Char :=
  match _ : readStatement? text with
  | some (statement, rest) =>
    let (statements, rest) := readStatements rest
    (statement :: statements, rest)
  | none => ([], text)
termination_by text.length
decreasing_by exact length_lt_of_readStatement? ‹_›

/-- The names of the nodes and the edges between them, as a text tells them. -/
def read? (text : String) : Option (List String × List (Edge String)) := do
  let (statements, rest) := readStatements (← expect? "digraph \x7b\n" text.toList)
  if rest = "\x7d\n".toList then
    return (statements.filterMap Statement.node?, statements.filterMap Statement.edge?)
  else none

end Dot

end DatalogStrata
