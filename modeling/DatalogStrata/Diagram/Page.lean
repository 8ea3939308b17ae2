import DatalogStrata.Diagram.Dot

/-!
# Diagrams

A diagram is shown either as DOT text or on an HTML page of its own, which carries the text and
draws it with a script. The title of the page is escaped; the DOT text stands as it is.

## Main definitions

* `Page.escape` — text as it stands on a page
* `Page.render` — the page for a DOT text
* `DiagramFormat`, `Precedence.diagram` — the diagram of a precedence graph in a given format
-/

namespace DatalogStrata

namespace Page

/-- Write the characters that mark up a page by their names; the ampersand, which begins every
such name, comes first. -/
def escape (text : String) : String :=
  let ampersands := replaceChar '&' "&amp;".toList text.toList
  let opened := replaceChar '<' "&lt;".toList ampersands
  String.ofList (replaceChar '>' "&gt;".toList opened)

/-- The page up to its title. -/
def preamble : String :=
  "<!DOCTYPE html>\n<html>\n<head>\n<meta charset=\"utf-8\">\n"

/-- The page from the end of the head to the heading. -/
def scripts : String :=
  "<script src=\"https://cdn.jsdelivr.net/npm/viz.js@2.1.2/viz.js\"></script>\n" ++
  "<script src=\"https://cdn.jsdelivr.net/npm/viz.js@2.1.2/full.render.js\"></script>\n" ++
  "</head>\n<body>\n"

/-- The page from the heading to the DOT text. -/
def opening : String :=
  "<div id=\"graph\"></div>\n<script type=\"text/vnd.graphviz\" id=\"dot\">\n"

/-- The page after the DOT text. -/
def closing : String :=
  "</script>\n<script>\n" ++
  "new Viz().renderSVGElement(document.getElementById(\"dot\").textContent)\n" ++
  "    .then(function (svg) \x7b document.getElementById(\"graph\").appendChild(svg); \x7d);\n" ++
  "</script>\n</body>\n</html>\n"

/-- The page that shows a DOT text under a title. -/
def render (dot title : String) : String :=
  preamble ++ "<title>" ++ escape title ++ "</title>\n" ++ scripts ++
    "<h1>" ++ escape title ++ "</h1>\n" ++ opening ++ dot ++ closing

end Page

/-- How a diagram is written. -/
inductive DiagramFormat where
  | dot
  | html
deriving DecidableEq, Repr

/-- The diagram of a precedence graph; only a page shows the title. -/
def Precedence.diagram (precedence : Precedence) (format : DiagramFormat) (title : String) :
    String :=
  match format with
  | .dot => precedence.dot
  | .html => Page.render precedence.dot title

end DatalogStrata
