import DatalogStrata.Diagram.Page

/-!
# The DOT text on a page

A page carries the DOT text in a script element of its own, from which the script below draws it.
The element begins behind the line that opens it. It ends where the next end tag of a script begins,
even if this tag stands in the DOT text itself. The tag is taken in small letters, as the page
writes it.

## Main definitions

* `cutAt?` — what stands before and after the first occurrence of a mark
* `Page.scriptLine`, `Page.scriptEnd` — the marks around the DOT text
* `Page.lead`, `Page.remainder` — the page before the first mark and after the second
* `Page.Parts`, `Page.parts?` — a page cut at both marks
-/

namespace DatalogStrata

/-- What stands before the first occurrence of a mark in a text, and what stands after it. -/
def cutAt? (mark : List Char) : List Char → Option (List Char × List Char)
  | [] => if mark = [] then some ([], []) else none
  | c :: text =>
    match mark.isPrefixOf? (c :: text) with
    | some after => some ([], after)
    | none => (cutAt? mark text).map fun (before, after) => (c :: before, after)

namespace Page

/-- The line that opens the element of the DOT text. -/
def scriptLine : String :=
  "<script type=\"text/vnd.graphviz\" id=\"dot\">\n"

/-- What begins the end tag of a script element. -/
def scriptEnd : String :=
  "</script"

/-- The page up to the element of the DOT text. -/
def lead (title : String) : String :=
  preamble ++ "<title>" ++ escape title ++ "</title>\n" ++ scripts ++
    "<h1>" ++ escape title ++ "</h1>\n" ++ "<div id=\"graph\"></div>\n"

/-- The page from what ends the element of the DOT text, without this mark. -/
def remainder : String :=
  String.ofList (closing.toList.drop scriptEnd.length)

/-- A page in three parts, without the marks between them. -/
structure Parts where
  before : String
  /-- What the viewer takes for the DOT text. -/
  script : String
  after : String
deriving DecidableEq, Repr

/-- Cut a page at the line that opens the element of the DOT text, and at the end tag after it. -/
def parts? (page : String) : Option Parts := do
  let (before, opened) ← cutAt? scriptLine.toList page.toList
  let (script, after) ← cutAt? scriptEnd.toList opened
  return ⟨String.ofList before, String.ofList script, String.ofList after⟩

end Page

end DatalogStrata
