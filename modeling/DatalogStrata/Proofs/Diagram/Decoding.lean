import DatalogStrata.Diagram.Reader
import DatalogStrata.Proofs.Dependency
import DatalogStrata.Proofs.Program.Validity
import DatalogStrata.Proofs.Text
import DatalogStrata.Proofs.Text.Replacement

/-!
# The graph that a DOT text tells

Escaping a name replaces every character by itself, so a quoted name ends at the first quote that
is not escaped and is read back from what stands before. Every line is then read back, whatever
follows it, and the lines of a graph end at a brace that begins none.

## Main definitions

* `Dot.escape`, `Dot.escapes` — what stands for a character between quotes
* `Precedence.displayNames`, `Precedence.displayEdges` — a graph by the names of its vertices

## Main results

* `Dot.readName?_quote` — a quoted name is read back, whatever follows
* `Dot.readStatement?_text` — so is a line
* `Precedence.read?_dot` — a graph is read back from its text
* `Precedence.dot_tells_graph` — graphs with one text agree in their names and edges
-/

namespace DatalogStrata

namespace Dot

/-! ## Quoted names -/

/-- What stands for a character between quotes. -/
def escape (c : Char) : List Char :=
  if c = '\\' then ['\\', '\\'] else if c = '"' then ['\\', '"'] else [c]

/-- What is escaped between quotes. Backslashes come first, since the other replacement brings in
one. -/
def escapes : List (Char × List Char) :=
  [('\\', ['\\', '\\']), ('"', ['\\', '"'])]

theorem escape_eq_standsFor : escape = standsFor escapes := by
  funext c
  rw [escapes, standsFor_cons, standsFor_cons]
  rfl

/-- The backslashes put before quotes are not doubled: both replacements are one pass. -/
theorem toList_quote (text : String) :
    (quote text).toList = '"' :: text.toList.flatMap escape ++ ['"'] := by
  have inTurn : quote text =
      "\"" ++ String.ofList (replaceInTurn escapes text.toList) ++ "\"" := rfl
  rw [inTurn, replaceInTurn_eq_flatMap (by decide), ← escape_eq_standsFor]
  simp

theorem readEscaped?_escape (text rest : List Char) :
    readEscaped? (text.flatMap escape ++ '"' :: rest) = some (text, rest) := by
  induction text with
  | nil => rfl
  | cons c text ih =>
    rw [List.flatMap_cons, List.append_assoc]
    by_cases backslash : c = '\\'
    · simp [escape, backslash, readEscaped?, ih]
    · by_cases mark : c = '"'
      · simp [escape, mark, readEscaped?, ih]
      · simp [escape, backslash, mark, readEscaped?, ih]

@[simp] theorem expect?_append (expected : String) (rest : List Char) :
    expect? expected (expected.toList ++ rest) = some rest := by
  rw [expect?, List.isPrefixOf?_eq_some_iff_append_eq]

/-- A quoted name is read back, whatever follows it. -/
@[simp] theorem readName?_quote (name : String) (rest : List Char) :
    readName? ((quote name).toList ++ rest) = some (name, rest) := by
  have opened : expect? "\"" ((quote name).toList ++ rest) =
      some (name.toList.flatMap escape ++ '"' :: rest) := by
    rw [expect?, List.isPrefixOf?_eq_some_iff_append_eq, toList_quote]
    simp
  simp [readName?, opened, readEscaped?_escape]

theorem quote_injective : Function.Injective quote := by
  intro name other same
  have read := readName?_quote name []
  rw [same, readName?_quote] at read
  exact (congrArg Prod.fst (Option.some_inj.mp read)).symm

/-! ## Lines -/

/-- A line is read back, whatever follows it. -/
theorem readStatement?_text (statement : Statement) (rest : List Char) :
    readStatement? (statement.text.toList ++ rest) = some (statement, rest) := by
  cases statement with
  | node name =>
    -- Behind the first name of a line a node has a bracket where an edge has an arrow.
    have noArrow : expect? " -> " (" [label = ".toList ++ ((quote name).toList ++
        ("];\n".toList ++ rest))) = none := rfl
    simp only [Statement.text, node, String.toList_append, List.append_assoc, readStatement?,
      expect?_append, readName?_quote, noArrow, Option.bind_eq_bind, Option.bind_some]
    rfl
  | edge joined =>
    obtain ⟨source, target, sign⟩ := joined
    -- A positive edge ends at once, and the end of a line is not taken for a style.
    have styled : readSign ((edgeStyle sign).toList ++ (";\n".toList ++ rest)) =
        (sign, ";\n".toList ++ rest) := by
      cases sign <;> rfl
    simp only [Statement.text, edge, String.toList_append, List.append_assoc, readStatement?,
      expect?_append, readName?_quote, styled, Option.bind_eq_bind, Option.bind_some]
    rfl

/-- Lines are read back up to what begins no line. -/
theorem readStatements_append (statements : List Statement) {rest : List Char}
    (ended : readStatement? rest = none) :
    readStatements ((concat (statements.map Statement.text)).toList ++ rest) =
      (statements, rest) := by
  induction statements with
  | nil =>
    rw [List.map_nil, concat_nil, String.toList_empty, List.nil_append, readStatements]
    split
    · next read =>
      rw [ended] at read
      cases read
    · rfl
  | cons statement statements ih =>
    rw [List.map_cons, concat_cons, String.toList_append, List.append_assoc, readStatements]
    split
    · next first rest read =>
      rw [readStatement?_text, Option.some_inj, Prod.mk.injEq] at read
      obtain ⟨rfl, rfl⟩ := read
      rw [ih]
    · next read =>
      rw [readStatement?_text] at read
      cases read

/-- What lines tell is read back from a text made of them; a brace begins no line. -/
theorem read?_lines (statements : List Statement) :
    read? ("digraph \x7b\n" ++ concat (statements.map Statement.text) ++ "\x7d\n") =
      some (statements.filterMap Statement.node?, statements.filterMap Statement.edge?) := by
  have brace : readStatement? "\x7d\n".toList = none := rfl
  rw [read?, String.toList_append, String.toList_append, List.append_assoc, expect?_append]
  simp only [Option.bind_eq_bind, Option.bind_some, readStatements_append statements brace,
    if_true]
  rfl

end Dot

namespace Precedence

/-! ## Graphs -/

/-- The names of the vertices, in their order. -/
def displayNames (precedence : Precedence) : List String :=
  precedence.graph.vertices.toList.map precedence.displayName

/-- The edges in their order, by the names of their ends. -/
def displayEdges (precedence : Precedence) : List (Edge String) :=
  precedence.graph.edges.map fun edge =>
    ⟨precedence.displayName edge.source, precedence.displayName edge.target, edge.polarity⟩

/-- The text of a graph is made of a line for each vertex and then one for each edge. -/
theorem dot_eq_lines {precedence : Precedence} (wellFormed : precedence.graph.WellFormed) :
    precedence.dot = "digraph \x7b\n" ++ concat
      ((precedence.displayNames.map Dot.Statement.node ++
        precedence.displayEdges.map Dot.Statement.edge).map Dot.Statement.text) ++ "\x7d\n" := by
  have nodes : precedence.dotNodes =
      concat ((precedence.displayNames.map Dot.Statement.node).map Dot.Statement.text) := by
    rw [dotNodes, displayNames, List.map_map, List.map_map]
    rfl
  have edges : precedence.dotEdges =
      concat ((precedence.displayEdges.map Dot.Statement.edge).map Dot.Statement.text) := by
    rw [dotEdges, displayEdges, wellFormed.edges_eq, List.map_map, List.map_map,
      List.map_flatMap]
    simp only [List.map_map]
    rfl
  simp only [dot, nodes, edges, List.map_append, concat_append, String.append_assoc]

/-- A graph is read back from its text. -/
theorem read?_dot {precedence : Precedence} (wellFormed : precedence.graph.WellFormed) :
    Dot.read? precedence.dot = some (precedence.displayNames, precedence.displayEdges) := by
  have nodes : (precedence.displayNames.map Dot.Statement.node ++
      precedence.displayEdges.map Dot.Statement.edge).filterMap Dot.Statement.node? =
        precedence.displayNames := by
    rw [List.filterMap_append, List.filterMap_map, List.filterMap_map]
    simp [Function.comp_def, Dot.Statement.node?]
  have edges : (precedence.displayNames.map Dot.Statement.node ++
      precedence.displayEdges.map Dot.Statement.edge).filterMap Dot.Statement.edge? =
        precedence.displayEdges := by
    rw [List.filterMap_append, List.filterMap_map, List.filterMap_map]
    simp [Function.comp_def, Dot.Statement.edge?]
  rw [dot_eq_lines wellFormed, Dot.read?_lines, nodes, edges]

theorem displayName_of_declaration? {precedence : Precedence} {relation : RelationId}
    {declaration : Declaration}
    (found : precedence.program.declaration? relation = some declaration) :
    precedence.displayName relation = declaration.name.text := by
  rw [displayName, name?, found, Option.map_some]

/-- The text of a precedence graph tells the names of its vertices in their order and its edges by
name and sign in theirs, whatever characters the names are made of: there is a reader for it, so
graphs with one text agree in both. In a program that was read and accepted the vertices are the
declared relations, and different relations are quoted differently, whatever the resolver. -/
theorem dot_tells_graph :
    (∀ program resolver, Dot.read? (build program resolver).dot =
      some ((build program resolver).displayNames, (build program resolver).displayEdges)) ∧
    (∀ program resolver other otherResolver,
      (build program resolver).dot = (build other otherResolver).dot →
        (build program resolver).displayNames = (build other otherResolver).displayNames ∧
          (build program resolver).displayEdges = (build other otherResolver).displayEdges) ∧
    ∀ text program, Program.parse text = .ok program →
      (∀ r, r ∈ program.precedence.graph.vertices ↔ r ∈ program.relationIds) ∧
      ∀ resolver, ∀ r ∈ program.relationIds, ∀ s ∈ program.relationIds, r ≠ s →
        Dot.quote ((build program resolver).displayName r) ≠
          Dot.quote ((build program resolver).displayName s) := by
  have reads (program : Program) (resolver : Resolver) :=
    read?_dot (wellFormed_build program resolver)
  refine ⟨reads, ?_, ?_⟩
  · intro program resolver other otherResolver same
    have both := reads program resolver
    rw [same, reads other otherResolver, Option.some_inj, Prod.mk.injEq] at both
    exact ⟨both.1.symm, both.2.symm⟩
  · intro text program parsed
    refine ⟨fun r => mem_vertices_precedence, ?_⟩
    intro resolver r declaredR s declaredS different same
    obtain ⟨first, atR⟩ := Program.exists_declaration declaredR
    obtain ⟨second, atS⟩ := Program.exists_declaration declaredS
    -- The names are those of the program, not of the resolver.
    rw [← program_build program resolver] at atR atS
    have texts := Dot.quote_injective same
    rw [displayName_of_declaration? atR, displayName_of_declaration? atS] at texts
    rw [program_build] at atR atS
    exact different (Program.relation_eq_of_text parsed atR atS texts)

end Precedence

end DatalogStrata
