import DatalogStrata.Output.Sink

/-!
# Writing tables

A table is written row by row: the values of a tuple with the delimiter between neighbours, and
`()` for a tuple without values. A plain table may open with a line of column names. A framed
table opens with a rule, the name of the relation, the column names if they are asked for, and a
second rule; it closes with a third.

Whatever happens, a framed table is closed once: when it is finished, or else when it is given up.

Of a relation whose tuples are not wanted, the name and the number of tuples are written.

## Main definitions

* `Value` — a value of a tuple
* `TableWriter` — a table being written
* `TableWriter.openPlain`, `TableWriter.openFramed`, `TableWriter.writeRow`,
  `TableWriter.finish`, `TableWriter.abandon` — from its first line to its last
* `SizeWriter` — sizes being written
-/

namespace DatalogStrata

/-- A value of a tuple. -/
inductive Value where
  | text (value : String)
  | number (value : Int64)
  | bool (value : Bool)
deriving DecidableEq, Repr

/-- The texts by which a value is written, in order. A minus sign stands by itself. -/
def Value.pieces : Value → List String
  | text value => [value]
  | number value =>
    let digits := toString value.toInt.natAbs
    if value.toInt < 0 then ["-", digits] else [digits]
  | bool value => [if value then "true" else "false"]

/-- A value as it stands in a row. -/
def Value.written (value : Value) : String :=
  concat value.pieces

namespace Table

/-- The first line of a frame. -/
def topRule : String :=
  "---------------"

/-- The line between frame and rows, and below the rows. -/
def rowRule : String :=
  "==============="

/-- What a plain table opens with. -/
def plainOpening (directives : Directives) : List String :=
  match directives.header? with
  | some header => [header, "\n"]
  | none => []

/-- What a framed table opens with. -/
def framedOpening (directives : Directives) : List String :=
  [topRule, "\n", directives.relationName, "\n"] ++ plainOpening directives ++ [rowRule, "\n"]

/-- The texts by which a tuple is written, in order. -/
def rowPieces (delimiter : String) : List Value → List String
  | [] => ["()\n"]
  | first :: others =>
    first.pieces ++ others.flatMap (fun value => delimiter :: value.pieces) ++ ["\n"]

/-- A tuple as a line. -/
def row (delimiter : String) (tuple : List Value) : String :=
  concat (rowPieces delimiter tuple)

end Table

/-- A table being written. -/
structure TableWriter (σ : Type) where
  sink : σ
  delimiter : String
  /-- The text with which the table is still to be closed. -/
  closing : Option String
deriving DecidableEq, Repr

namespace TableWriter

variable {σ : Type} [Sink σ]

/-- Write the opening of a table. -/
def openWith (opening : List String) (closing : Option String) (directives : Directives)
    (sink : σ) : Except WriteError Unit × TableWriter σ :=
  let (result, sink) := Sink.writeAll sink opening
  (result, ⟨sink, directives.delimiter, closing⟩)

/-- Begin a plain table. -/
def openPlain (directives : Directives) (sink : σ) : Except WriteError Unit × TableWriter σ :=
  openWith (Table.plainOpening directives) none directives sink

/-- Begin a framed table. -/
def openFramed (directives : Directives) (sink : σ) : Except WriteError Unit × TableWriter σ :=
  openWith (Table.framedOpening directives) (some (line Table.rowRule)) directives sink

/-- Write a tuple. -/
def writeRow (writer : TableWriter σ) (tuple : List Value) :
    Except WriteError Unit × TableWriter σ :=
  let (result, sink) := Sink.writeAll writer.sink (Table.rowPieces writer.delimiter tuple)
  (result, { writer with sink := sink })

/-- Write a text and, if all of it was taken, flush. -/
def writeLast (sink : σ) (text : String) : Except WriteError Unit × σ :=
  match Sink.write sink text with
  | (.ok (), sink) => Sink.flush sink
  | (.error error, sink) => (.error error, sink)

/-- Close a table and flush. Afterwards there is nothing left to close. -/
def finish (writer : TableWriter σ) : Except WriteError Unit × TableWriter σ :=
  let (result, sink) := writeLast writer.sink (writer.closing.getD "")
  (result, { writer with sink := sink, closing := none })

/-- Give a table up. One that is still to be closed is closed, whether that succeeds or not. -/
def abandon (writer : TableWriter σ) : σ :=
  match writer.closing with
  -- Nobody is left to hear of a failure.
  | some closing => (writeLast writer.sink closing).2
  | none => writer.sink

end TableWriter

/-- Sizes being written. -/
structure SizeWriter (σ : Type) where
  sink : σ
  relation : String
deriving DecidableEq, Repr

namespace SizeWriter

variable {σ : Type} [Sink σ]

/-- The line for a size. -/
def row (relation : String) (size : Nat) : String :=
  line (relation ++ "\t" ++ toString size)

/-- Write a size and flush. -/
def writeSize (writer : SizeWriter σ) (size : Nat) : Except WriteError Unit × SizeWriter σ :=
  let (result, sink) := TableWriter.writeLast writer.sink (row writer.relation size)
  (result, { writer with sink := sink })

/-- Refuse a tuple. -/
def writeRow (writer : SizeWriter σ) (_tuple : List Value) :
    Except WriteError Unit × SizeWriter σ :=
  (.error (.sizeOnly writer.relation), writer)

end SizeWriter

end DatalogStrata
