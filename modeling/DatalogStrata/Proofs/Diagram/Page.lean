import DatalogStrata.Proofs.Diagram.Escaping
import DatalogStrata.Proofs.Diagram.Script

/-!
# The graph that a page carries

The title of a page is escaped and the DOT text is not. So the element of the DOT text is found
whatever the title is, and it ends behind the text or within it: in the first name, in the order of
the vertices, in which an end tag of a script begins. Nothing else in a DOT text can end the
element, since what is written around names has no such tag and what is escaped in a name has no
part in one.

## Main definitions

* `Dot.brokenOff` — the text of a graph up to within the name of a node
* `Precedence.FitsPage` — no name of a vertex holds the beginning of an end tag

## Main results

* `Dot.infix_escape_iff` — an end tag in an escaped name stands in the name
* `Dot.scriptEnd_infix_concat_iff` — an end tag in lines stands in a name
* `Dot.read?_brokenOff` — a text that ends within a name is not read
* `Precedence.page_carries_dot_iff` — when a page shows the graph that it was made for
-/

namespace DatalogStrata

/-! ## Marks in a DOT text -/

namespace Dot

section Escaped

variable {mark : List Char} (plain : '\\' ∉ mark ∧ '"' ∉ mark)
include plain

/-- A mark without escaped characters begins an escaped name when it begins the name. -/
theorem prefix_escape_iff (name : List Char) : mark <+: name.flatMap escape ↔ mark <+: name := by
  induction mark generalizing name with
  | nil => simp
  | cons c mark ih =>
    obtain ⟨plainC, plainMark⟩ : (c ≠ '\\' ∧ c ≠ '"') ∧ ('\\' ∉ mark ∧ '"' ∉ mark) := by
      grind
    cases name with
    | nil => simp
    | cons d name =>
      by_cases backslash : d = '\\'
      · simp [escape, backslash, plainC.1, List.cons_prefix_cons]
      · by_cases quotes : d = '"'
        · simp [escape, quotes, plainC, List.cons_prefix_cons]
        · simp [escape, backslash, quotes, List.cons_prefix_cons, ih plainMark]

/-- A mark without escaped characters occurs in an escaped name when it occurs in the name. -/
theorem infix_escape_iff (name : List Char) :
    mark <:+: name.flatMap escape ↔ mark <:+: name := by
  induction name with
  | nil => rfl
  | cons d name ih =>
    have skip {d : Char} (outside : d ∉ mark) (text : List Char) :
        mark <:+: d :: text ↔ mark <:+: [] ∨ mark <:+: text :=
      infix_separated_iff outside [] text
    by_cases backslash : d = '\\'
    · subst backslash
      simp [escape, skip plain.1, ih]
    · by_cases quotes : d = '"'
      · subst quotes
        simp [escape, skip plain.1, skip plain.2, ih]
      · have itself : (d :: name).flatMap escape = d :: name.flatMap escape := by
          simp [escape, backslash, quotes]
        have begins := prefix_escape_iff plain (d :: name)
        rw [itself] at begins ⊢
        rw [List.infix_cons_iff, List.infix_cons_iff, begins, ih]

end Escaped

open Page (scriptEnd)

variable {text : List Char}

/-- What is written around names holds no beginning of an end tag. -/
theorem scriptEnd_infix_append_iff (never : NeverBegins scriptEnd.toList text)
    (more : List Char) :
    scriptEnd.toList <:+: text ++ more ↔ scriptEnd.toList <:+: more :=
  never.infix_append_iff (by decide)

theorem scriptEnd_infix_quote_iff (name : String) (more : List Char) :
    scriptEnd.toList <:+: (quote name).toList ++ more ↔
      scriptEnd.toList <:+: name.toList ∨ scriptEnd.toList <:+: more := by
  have parts : (quote name).toList ++ more =
      ['"'] ++ (name.toList.flatMap escape ++ '"' :: more) := by
    simp [toList_quote]
  rw [parts, scriptEnd_infix_append_iff (by decide), infix_separated_iff (by decide),
    infix_escape_iff (by decide)]

/-- The names on a line. -/
def Statement.names : Statement → List String
  | .node name => [name]
  | .edge joined => [joined.source, joined.target]

theorem scriptEnd_infix_statement_iff (statement : Statement) (more : List Char) :
    scriptEnd.toList <:+: statement.text.toList ++ more ↔
      (∃ name ∈ statement.names, scriptEnd.toList <:+: name.toList) ∨
        scriptEnd.toList <:+: more := by
  cases statement with
  | node name =>
    simp only [Statement.text, node, String.toList_append, List.append_assoc]
    rw [scriptEnd_infix_append_iff (by decide), scriptEnd_infix_quote_iff,
      scriptEnd_infix_append_iff (by decide), scriptEnd_infix_quote_iff,
      scriptEnd_infix_append_iff (by decide)]
    simp [Statement.names]
  | edge joined =>
    obtain ⟨source, target, sign⟩ := joined
    have style : NeverBegins scriptEnd.toList (edgeStyle sign).toList := by
      cases sign <;> decide
    simp only [Statement.text, edge, String.toList_append, List.append_assoc]
    rw [scriptEnd_infix_append_iff (by decide), scriptEnd_infix_quote_iff,
      scriptEnd_infix_append_iff (by decide), scriptEnd_infix_quote_iff,
      scriptEnd_infix_append_iff style, scriptEnd_infix_append_iff (by decide)]
    simp [Statement.names, or_assoc]

/-- An end tag begins in lines when it begins in a name on one of them. -/
theorem scriptEnd_infix_concat_iff (statements : List Statement) (more : List Char) :
    scriptEnd.toList <:+: (concat (statements.map Statement.text)).toList ++ more ↔
      (∃ name ∈ statements.flatMap Statement.names, scriptEnd.toList <:+: name.toList) ∨
        scriptEnd.toList <:+: more := by
  induction statements with
  | nil => simp
  | cons statement statements ih =>
    rw [List.map_cons, concat_cons, String.toList_append, List.append_assoc,
      scriptEnd_infix_statement_iff, ih, List.flatMap_cons, ← or_assoc]
    simp only [List.mem_append, or_and_right, exists_or]

/-! ## A text that is cut short -/

/-- A name whose closing quote is missing is not read. -/
theorem readEscaped?_open (name : List Char) : readEscaped? (name.flatMap escape) = none := by
  induction name with
  | nil => rfl
  | cons c name ih =>
    by_cases backslash : c = '\\'
    · simp [escape, backslash, readEscaped?, ih]
    · by_cases quotes : c = '"'
      · simp [escape, quotes, readEscaped?, ih]
      · simp [escape, backslash, quotes, readEscaped?, ih]

/-- The text of a graph up to within the name of a node. -/
def brokenOff (kept : List String) (start : String) : String :=
  "digraph \x7b\n" ++ concat (kept.map node) ++
    ("\t\"" ++ String.ofList (start.toList.flatMap escape))

theorem map_node (names : List String) :
    names.map node = (names.map Statement.node).map Statement.text := by
  rw [List.map_map]
  rfl

/-- A text that ends within a name is not read. -/
theorem read?_brokenOff (kept : List String) (start : String) :
    read? (brokenOff kept start) = none := by
  have opened : ("\t\"" ++ String.ofList (start.toList.flatMap escape)).toList =
      "\t".toList ++ ("\"".toList ++ start.toList.flatMap escape) := by
    simp
  have unread : readName? ("\"".toList ++ start.toList.flatMap escape) = none := by
    rw [readName?, expect?_append, Option.bind_eq_bind, Option.bind_some, readEscaped?_open]
    rfl
  have ended : readStatement?
      ("\t".toList ++ ("\"".toList ++ start.toList.flatMap escape)) = none := by
    rw [readStatement?, expect?_append, Option.bind_eq_bind, Option.bind_some, unread]
    rfl
  rw [read?, brokenOff, String.toList_append, String.toList_append, List.append_assoc,
    expect?_append, opened, map_node]
  simp only [Option.bind_eq_bind, Option.bind_some, readStatements_append _ ended]
  exact if_neg (by simp)

theorem scriptEnd_infix_brokenOff_iff (kept : List String) (start : String) :
    scriptEnd.toList <:+: (brokenOff kept start).toList ↔
      (∃ name ∈ kept, scriptEnd.toList <:+: name.toList) ∨
        scriptEnd.toList <:+: start.toList := by
  rw [brokenOff, map_node, String.toList_append, String.toList_append, List.append_assoc,
    scriptEnd_infix_append_iff (by decide), scriptEnd_infix_concat_iff, String.toList_append,
    scriptEnd_infix_append_iff (by decide), String.toList_ofList, infix_escape_iff (by decide)]
  simp [List.flatMap_map, Statement.names]

/-- The line of a node goes on with the mark where its name does. -/
theorem toList_node_within (start rest : String) :
    ∃ more, (node (start ++ scriptEnd ++ rest)).toList =
      ("\t\"" ++ String.ofList (start.toList.flatMap escape)).toList ++
        (scriptEnd.toList ++ more) := by
  have itself : scriptEnd.toList.flatMap escape = scriptEnd.toList := by decide
  refine ⟨rest.toList.flatMap escape ++ ('"' :: (" [label = " ++
    quote (start ++ scriptEnd ++ rest) ++ "];\n").toList), ?_⟩
  rw [node]
  simp only [String.toList_append, toList_quote, List.flatMap_append, itself]
  simp

end Dot

namespace Page

/-! ## The page around the DOT text -/

theorem render_eq (dot title : String) :
    render dot title = lead title ++ scriptLine ++ (dot ++ closing) := by
  have opening_eq : opening = "<div id=\"graph\"></div>\n" ++ scriptLine := by decide
  simp only [render, lead, opening_eq, String.append_assoc]

/-- The line that opens the element of the DOT text does not occur before it. -/
theorem scriptLine_free (title : String) : ¬ scriptLine.toList <:+: (lead title).toList := by
  -- Part by part: what is escaped cannot open a tag, and what is written out is compared.
  have opened : NeverBegins scriptLine.toList preamble.toList := neverBegins_ofList (by decide)
  have escaped : NeverBegins scriptLine.toList (escape title).toList :=
    neverBegins_of_not_mem (not_mem_escape (.inl rfl) title)
  have loaded : NeverBegins scriptLine.toList scripts.toList :=
    ((neverBegins_ofList (by decide)).toList_append (neverBegins_ofList (by decide))).toList_append
      (neverBegins_ofList (by decide))
  have head : NeverBegins scriptLine.toList
      (preamble ++ "<title>" ++ escape title ++ "</title>\n" ++ scripts).toList :=
    (((opened.toList_append (neverBegins_ofList (by decide))).toList_append escaped).toList_append
      (neverBegins_ofList (by decide))).toList_append loaded
  have never : NeverBegins scriptLine.toList (lead title).toList :=
    (((head.toList_append (neverBegins_ofList (by decide))).toList_append escaped).toList_append
      (neverBegins_ofList (by decide))).toList_append (neverBegins_ofList (by decide))
  rw [← List.append_nil (lead title).toList, never.infix_append_iff (by decide), List.infix_nil]
  decide

theorem prefix_toList_append {mark first second : String} (begins : mark.toList <+: first.toList) :
    mark.toList <+: (first ++ second).toList := by
  rw [String.toList_append]
  exact begins.trans (List.prefix_append _ _)

theorem closing_eq : closing = scriptEnd ++ remainder := by
  have first : scriptEnd.toList <+: "</script>\n<script>\n".toList := by decide
  have starts : scriptEnd.toList <+: closing.toList :=
    prefix_toList_append (prefix_toList_append (prefix_toList_append first))
  rw [← String.toList_inj, String.toList_append, remainder, String.toList_ofList,
    ← String.length_toList]
  exact (List.prefix_iff_eq_append.mp starts).symm

/-- The parts of a page and the marks between them are the page. -/
theorem eq_of_parts? {page : String} {parts : Parts} (cut : parts? page = some parts) :
    page = parts.before ++ scriptLine ++ (parts.script ++ scriptEnd ++ parts.after) := by
  simp only [parts?, Option.bind_eq_bind, Option.bind_eq_some_iff, Prod.exists,
    Option.pure_def, Option.some_inj] at cut
  obtain ⟨before, opened, first, script, after, second, rfl⟩ := cut
  rw [← String.toList_inj, ← append_of_cutAt? first, ← append_of_cutAt? second]
  simp only [String.toList_append, String.toList_ofList, List.append_assoc]

/-- The DOT text on a page ends with the first end tag of a script. -/
theorem parts?_render {dot : String} (title : String) {script after : List Char}
    (cut : cutAt? scriptEnd.toList (dot ++ closing).toList = some (script, after)) :
    parts? (render dot title) =
      some ⟨lead title, String.ofList script, String.ofList after⟩ := by
  have opened : cutAt? scriptLine.toList (render dot title).toList =
      some ((lead title).toList, (dot ++ closing).toList) := by
    rw [render_eq, String.toList_append, String.toList_append, List.append_assoc]
    exact cutAt?_append (by decide) (scriptLine_free title)
  simp only [parts?, opened, cut, Option.bind_eq_bind, Option.bind_some, String.ofList_toList]
  rfl

/-- The viewer gets the whole DOT text when what follows the element is the rest of the page. -/
theorem script_eq_iff_after_eq {dot title : String} {parts : Parts}
    (cut : parts? (render dot title) = some parts) (led : parts.before = lead title) :
    parts.script = dot ↔ parts.after = remainder := by
  have whole := eq_of_parts? cut
  rw [render_eq, closing_eq, led, String.append_right_inj, ← String.append_assoc] at whole
  constructor
  · intro same
    rw [same, String.append_right_inj] at whole
    exact whole.symm
  · intro same
    rw [same, String.append_left_inj, String.append_left_inj] at whole
    exact whole.symm

end Page

namespace Precedence

/-! ## Graphs on a page -/

open Page (scriptEnd remainder closing)

variable {precedence : Precedence}

/-- No vertex has a name in which an end tag of a script begins. -/
def FitsPage (precedence : Precedence) : Prop :=
  ∀ name ∈ precedence.displayNames, ¬ scriptEnd.toList <:+: name.toList

theorem dotNodes_eq : precedence.dotNodes = concat (precedence.displayNames.map Dot.node) := by
  rw [dotNodes, displayNames, List.map_map]
  rfl

/-- The names at the ends of edges are names of vertices. -/
theorem mem_displayNames_of_mem_displayEdges {edge : Edge String}
    (listed : edge ∈ precedence.displayEdges) :
    edge.source ∈ precedence.displayNames ∧ edge.target ∈ precedence.displayNames := by
  obtain ⟨joined, inside, rfl⟩ := List.mem_map.mp listed
  obtain ⟨source, target⟩ := Graph.mem_vertices_of_hasEdge ⟨joined.polarity, inside⟩
  exact ⟨List.mem_map_of_mem (Array.mem_toList_iff.mpr source),
    List.mem_map_of_mem (Array.mem_toList_iff.mpr target)⟩

/-- The element of a graph whose names fit ends behind its text. -/
theorem cut_of_fits (wellFormed : precedence.graph.WellFormed) (fits : precedence.FitsPage) :
    cutAt? scriptEnd.toList (precedence.dot ++ closing).toList =
      some (precedence.dot.toList, remainder.toList) := by
  have free : ¬ scriptEnd.toList <:+: precedence.dot.toList := by
    rw [dot_eq_lines wellFormed, String.toList_append, String.toList_append, List.append_assoc,
      Dot.scriptEnd_infix_append_iff (by decide), Dot.scriptEnd_infix_concat_iff]
    rintro (⟨name, named, inside⟩ | brace)
    · refine fits name ?_ inside
      simp only [List.flatMap_append, List.flatMap_map, List.mem_append, List.mem_flatMap,
        Dot.Statement.names, List.mem_cons, List.not_mem_nil, or_false] at named
      obtain ⟨_, vertex, rfl⟩ | ⟨edge, listed, rfl | rfl⟩ := named
      · exact vertex
      · exact (mem_displayNames_of_mem_displayEdges listed).1
      · exact (mem_displayNames_of_mem_displayEdges listed).2
    · revert brace
      decide
  rw [Page.closing_eq, String.toList_append, String.toList_append]
  exact cutAt?_append (by decide) free

/-- In any other graph there is a first name that does not fit, and in it a first end tag. -/
theorem exists_first_unfit (unfit : ¬ precedence.FitsPage) :
    ∃ kept start rest dropped,
      precedence.displayNames = kept ++ (start ++ scriptEnd ++ rest) :: dropped ∧
      (∀ name ∈ kept, ¬ scriptEnd.toList <:+: name.toList) ∧
      ¬ scriptEnd.toList <:+: start.toList := by
  have occurs : ∃ name ∈ precedence.displayNames, scriptEnd.toList <:+: name.toList := by
    simpa [FitsPage] using unfit
  obtain ⟨name, found⟩ := Option.isSome_iff_exists.mp <| List.find?_isSome
    (p := fun name : String => decide (scriptEnd.toList <:+: name.toList)) |>.mpr
      (by simpa using occurs)
  obtain ⟨inside, kept, dropped, split, fitting⟩ := List.find?_eq_some_iff_append.mp found
  obtain ⟨start, rest, within, free⟩ := exists_first_infix (by decide) (of_decide_eq_true inside)
  obtain rfl : name = String.ofList start ++ scriptEnd ++ String.ofList rest := by
    rw [← String.toList_inj, within]
    simp
  refine ⟨kept, _, _, dropped, split, by simpa using fitting, ?_⟩
  rwa [String.toList_ofList]

/-- The element ends within the first name that does not fit. -/
theorem exists_cut_within {kept dropped : List String} {start rest : String}
    (split : precedence.displayNames = kept ++ (start ++ scriptEnd ++ rest) :: dropped)
    (keptFit : ∀ name ∈ kept, ¬ scriptEnd.toList <:+: name.toList)
    (startFits : ¬ scriptEnd.toList <:+: start.toList) :
    ∃ after, cutAt? scriptEnd.toList (precedence.dot ++ closing).toList =
      some ((Dot.brokenOff kept start).toList, after) := by
  have free : ¬ scriptEnd.toList <:+: (Dot.brokenOff kept start).toList := by
    rw [Dot.scriptEnd_infix_brokenOff_iff]
    rintro (⟨name, listed, inside⟩ | inside)
    · exact keptFit name listed inside
    · exact startFits inside
  obtain ⟨more, line⟩ := Dot.toList_node_within start rest
  have nodes : precedence.dotNodes = concat (kept.map Dot.node) ++
      (Dot.node (start ++ scriptEnd ++ rest) ++ concat (dropped.map Dot.node)) := by
    rw [dotNodes_eq, split, List.map_append, List.map_cons, concat_append, concat_cons]
  obtain ⟨later, goesOn⟩ : ∃ later, (precedence.dot ++ closing).toList =
      (Dot.brokenOff kept start).toList ++ (scriptEnd.toList ++ later) := by
    refine ⟨more ++ (concat (dropped.map Dot.node) ++ precedence.dotEdges ++ "\x7d\n" ++
      closing).toList, ?_⟩
    rw [dot, nodes, Dot.brokenOff]
    simp only [String.toList_append, line, List.append_assoc]
  rw [goesOn]
  exact ⟨later, cutAt?_append (by decide) free⟩

/-- A page shows the graph that it was made for exactly when no vertex has a name in which an end
tag of a script begins. The names of such a graph reach the page as they are written in the DOT
text, which is what the viewer gets and reads back. In any other graph the first name of this kind
ends the element: the viewer gets a text that breaks off within the name and cannot be read, and
what follows of the name belongs to the page. The title makes no difference. -/
theorem page_carries_dot_iff (program : Program) (resolver : Resolver) (title : String) :
    let precedence := build program resolver
    ∃ parts, Page.parts? (precedence.diagram .html title) = some parts ∧
      parts.before = Page.lead title ∧
      (parts.script = precedence.dot ↔ precedence.FitsPage) ∧
      (parts.after = remainder ↔ precedence.FitsPage) ∧
      (Dot.read? parts.script = some (precedence.displayNames, precedence.displayEdges) ↔
        precedence.FitsPage) ∧
      (¬ precedence.FitsPage → Dot.read? parts.script = none ∧
        ∃ kept start rest dropped,
          precedence.displayNames = kept ++ (start ++ scriptEnd ++ rest) :: dropped ∧
          (∀ name ∈ kept, ¬ scriptEnd.toList <:+: name.toList) ∧
          ¬ scriptEnd.toList <:+: start.toList ∧
          parts.script = Dot.brokenOff kept start) := by
  intro precedence
  have wellFormed := wellFormed_build program resolver
  have read := read?_dot wellFormed
  by_cases fits : precedence.FitsPage
  · have cut := Page.parts?_render title (cut_of_fits wellFormed fits)
    rw [String.ofList_toList, String.ofList_toList] at cut
    exact ⟨_, cut, rfl, iff_of_true rfl fits, iff_of_true rfl fits, iff_of_true read fits,
      fun unfit => absurd fits unfit⟩
  · obtain ⟨kept, start, rest, dropped, split, keptFit, startFits⟩ := exists_first_unfit fits
    obtain ⟨after, cut⟩ := exists_cut_within split keptFit startFits
    have parts := Page.parts?_render title cut
    rw [String.ofList_toList] at parts
    have unread := Dot.read?_brokenOff kept start
    have short : Dot.brokenOff kept start ≠ precedence.dot := by
      intro same
      rw [same, read] at unread
      cases unread
    have longer := (Page.script_eq_iff_after_eq parts rfl).not.mp short
    refine ⟨_, parts, rfl, iff_of_false short fits, iff_of_false longer fits,
      iff_of_false ?_ fits, fun _ => ⟨unread, kept, start, rest, dropped, split, keptFit, startFits,
        rfl⟩⟩
    rw [unread]
    exact nofun

end Precedence

/-! ## A relation named like an end tag -/

namespace EndTagName

/-- A text that declares one relation. -/
def source : String :=
  "\x7b\"relations\": [\x7b\"name\": \"</script>\"\x7d]\x7d"

/-- The program that the text describes. -/
def program : Program where
  declarations := [⟨⟨["</script>"]⟩, []⟩]
  clauses := []

/-- The name of the relation ends the element, and the text up to it is not that of a graph. -/
theorem element_ends_within_name :
    Program.parse source = .ok program ∧
    ∃ parts, Page.parts? (program.precedence.diagram .html "g") = some parts ∧
      parts.script = "digraph \x7b\n\t\"" ∧
      parts.script ≠ program.precedence.dot ∧ Dot.read? parts.script = none := by
  have dot : program.precedence.dot = "digraph \x7b\n\t\"" ++ Page.scriptEnd ++
      ">\" [label = \"</script>\"];\n\x7d\n" := by
    decide
  -- The page is not computed: the end of the element is found before the script that draws it.
  have cut : cutAt? Page.scriptEnd.toList (program.precedence.dot ++ Page.closing).toList =
      some ("digraph \x7b\n\t\"".toList,
        (">\" [label = \"</script>\"];\n\x7d\n" ++ Page.closing).toList) := by
    rw [dot, String.append_assoc, String.append_assoc, String.toList_append, String.toList_append]
    exact cutAt?_append (by decide) (by decide)
  have broken : String.ofList "digraph \x7b\n\t\"".toList = Dot.brokenOff [] "" := by
    decide
  refine ⟨by decide +kernel, _, Page.parts?_render "g" cut, String.ofList_toList, by decide, ?_⟩
  rw [broken]
  exact Dot.read?_brokenOff [] ""

end EndTagName

end DatalogStrata
