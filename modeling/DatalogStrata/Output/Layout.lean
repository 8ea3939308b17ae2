import DatalogStrata.Output.Table

/-!
# Tables as texts

What a table looks like when all of it is written: the lines above the rows, a line for each tuple,
and below a frame one more rule.

## Main definitions

* `Table.openingText`, `Table.rowText`, `Table.closingText` — the parts of a table
* `Table.text` — the whole of a table
* `TableWriter.openTable`, `TableWriter.writeRows` — begin a table of either kind, and write tuples
-/

namespace DatalogStrata

namespace Table

/-- The line of column names, if one is asked for. -/
def columnsText (directives : Directives) : String :=
  match directives.header? with
  | some header => line header
  | none => ""

/-- What stands above the rows. -/
def openingText (framed : Bool) (directives : Directives) : String :=
  if framed then
    line topRule ++ line directives.relationName ++ columnsText directives ++ line rowRule
  else columnsText directives

/-- A tuple as a line. -/
def rowText (delimiter : String) (tuple : List Value) : String :=
  line (if tuple.isEmpty then "()" else delimiter.intercalate (tuple.map Value.written))

/-- The rows, one line each. -/
def rowsText (delimiter : String) (tuples : List (List Value)) : String :=
  concat (tuples.map (rowText delimiter))

/-- What stands below the rows. -/
def closingText (framed : Bool) : String :=
  if framed then line rowRule else ""

/-- A whole table. -/
def text (framed : Bool) (directives : Directives) (tuples : List (List Value)) : String :=
  openingText framed directives ++ rowsText directives.delimiter tuples ++ closingText framed

end Table

namespace TableWriter

variable {σ : Type} [Sink σ]

/-- Begin a table, framed or plain. -/
def openTable (framed : Bool) (directives : Directives) (sink : σ) :
    Except WriteError Unit × TableWriter σ :=
  if framed then openFramed directives sink else openPlain directives sink

/-- Write tuples one after another. Those after one that is refused are tried as well. -/
def writeRows (writer : TableWriter σ) :
    List (List Value) → List (Except WriteError Unit) × TableWriter σ
  | [] => ([], writer)
  | tuple :: rest =>
    let (answer, writer) := writer.writeRow tuple
    let (answers, writer) := writer.writeRows rest
    (answer :: answers, writer)

end TableWriter

end DatalogStrata
