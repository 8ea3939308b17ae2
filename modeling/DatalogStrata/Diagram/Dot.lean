import DatalogStrata.Precedence

/-!
# Precedence graphs in the DOT language

Every relation is a node, labelled by its name; every dependency is an edge, dashed when it is
negative. Names stand between quotes, with a backslash before every quote and every backslash.

## Main definitions

* `Dot.quote` — a name as a quoted text
* `Precedence.dot` — the graph as DOT text
-/

namespace DatalogStrata

namespace Dot

/-- A text between quotes; backslashes are doubled first, then quotes get one. -/
def quote (text : String) : String :=
  -- In the other order the backslashes put before quotes would be doubled as well.
  let doubled := replaceChar '\\' ['\\', '\\'] text.toList
  "\"" ++ String.ofList (replaceChar '"' ['\\', '"'] doubled) ++ "\""

/-- The line that declares a node. -/
def node (name : String) : String :=
  "\t" ++ quote name ++ " [label = " ++ quote name ++ "];\n"

/-- What follows an edge. -/
def edgeStyle : Polarity → String
  | .positive => ""
  | .negative => " [style = dashed]"

/-- The line that declares an edge. -/
def edge (source target : String) (sign : Polarity) : String :=
  "\t" ++ quote source ++ " -> " ++ quote target ++ edgeStyle sign ++ ";\n"

end Dot

namespace Precedence

/-- The nodes, one line each. -/
def dotNodes (precedence : Precedence) : String :=
  concat (precedence.graph.vertices.toList.map fun relation =>
    Dot.node (precedence.displayName relation))

/-- The edges, one line each, grouped by source. -/
def dotEdges (precedence : Precedence) : String :=
  concat (precedence.graph.vertices.toList.flatMap fun relation =>
    (precedence.graph.successorEdges relation).map fun (next, sign) =>
      Dot.edge (precedence.displayName relation) (precedence.displayName next) sign)

/-- The graph as DOT text. -/
def dot (precedence : Precedence) : String :=
  "digraph \x7b\n" ++ precedence.dotNodes ++ precedence.dotEdges ++ "\x7d\n"

end Precedence

end DatalogStrata
