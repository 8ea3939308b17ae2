import DatalogStrata.Proofs.Output.Table
import DatalogStrata.Proofs.Declaration

/-!
# Tables that are read back

A plain table is a text of lines, each with its end, and a line is a record of cells with the
delimiter between neighbours. As long as no cell holds the delimiter or a line end, reading undoes
writing: cutting at line ends gives the lines and an empty rest, and cutting a line gives its cells.
A line that is empty is a record of one empty cell, so no record is lost.

The line of column names is joined when a declaration is given to the directives, and rows when they
are written. Both use the delimiter in effect, which is the same when it is not changed in between.

## Main definitions

* `Table.IsCell` — a text that can stand between delimiters
* `Table.read?` — the records of a table
* `Directives.setAll`, `Directives.LeavesColumns` — further directives that keep the columns as
  they are

## Main results

* `Directives.get?_set` — what is found after a directive has been stored
* `Table.read?_concat_recordText` — records that are written are read back
* `TableWriter.writeTable_ok` — a whole table on a sink that takes everything
* `TableWriter.table_read_back` — a plain table is read back as its column names and tuples
-/

namespace DatalogStrata

namespace Directives

/-! ## Directives that are set one after another -/

/-- In a store the new text is found under its key, and under another key what was there before. -/
theorem find?_store (key value other : String) (entries : List (String × String)) :
    ((store key value entries).find? fun entry => entry.1 = other).map Prod.snd =
      if other = key then some value
      else (entries.find? fun entry => entry.1 = other).map Prod.snd := by
  -- Wherever the new text is put, the entry with it is met before what stands behind it.
  have first (rest : List (String × String)) :
      (((key, value) :: rest).find? fun entry => entry.1 = other).map Prod.snd =
        if other = key then some value
        else (rest.find? fun entry => entry.1 = other).map Prod.snd := by
    by_cases same : other = key
    · simp [same]
    · simp [same, Ne.symm same]
  induction entries with
  | nil => exact first []
  | cons entry rest ih =>
    rw [store]
    by_cases less : key < entry.1
    · rw [if_pos less]
      exact first (entry :: rest)
    rw [if_neg less]
    by_cases replaced : key = entry.1
    · -- The old entry has the same key, so it makes no difference for any other.
      rw [if_pos replaced, first rest, List.find?_cons, ← replaced]
      by_cases same : other = key
      · simp [same]
      · simp [same, Ne.symm same]
    · rw [if_neg replaced, List.find?_cons, List.find?_cons]
      by_cases here : entry.1 = other
      · have notKey : other ≠ key := fun same => replaced (here.trans same).symm
        simp [here, notKey]
      · simp [here, ih]

theorem get?_set (directives : Directives) (key value other : String) :
    (directives.set key value).get? other =
      if other = key then some value else directives.get? other :=
  find?_store key value other directives.entries

/-- Store several directives one after another. -/
def setAll (directives : Directives) (settings : List (String × String)) : Directives :=
  settings.foldl (fun directives entry => directives.set entry.1 entry.2) directives

/-- A setting that does not change delimiter and column names, if these are as given. -/
def LeavesColumns (delimiter columns : String) (setting : String × String) : Prop :=
  (setting.1 = "delimiter" → setting.2 = delimiter) ∧
    (setting.1 = "attributeNames" → setting.2 = columns)

instance (delimiter columns : String) (setting : String × String) :
    Decidable (LeavesColumns delimiter columns setting) :=
  inferInstanceAs (Decidable (_ ∧ _))

variable {delimiter columns : String} {settings : List (String × String)}

/-- Settings of other directives keep delimiter and column names. -/
theorem setAll_leaves {directives : Directives} (delimited : directives.delimiter = delimiter)
    (named : directives.get? "attributeNames" = some columns)
    (leaves : ∀ setting ∈ settings, LeavesColumns delimiter columns setting) :
    (directives.setAll settings).delimiter = delimiter ∧
      (directives.setAll settings).get? "attributeNames" = some columns := by
  induction settings generalizing directives with
  | nil => exact ⟨delimited, named⟩
  | cons setting rest ih =>
    obtain ⟨sameDelimiter, sameColumns⟩ := leaves setting List.mem_cons_self
    apply ih
    · rw [Directives.delimiter, get?_set]
      by_cases here : "delimiter" = setting.1
      · rw [if_pos here]
        exact sameDelimiter here.symm
      · rw [if_neg here]
        exact delimited
    · rw [get?_set]
      by_cases here : "attributeNames" = setting.1
      · rw [if_pos here, sameColumns here.symm]
      · rw [if_neg here]
        exact named
    · exact fun other member => leaves other (List.mem_cons_of_mem _ member)

theorem delimiter_withRelation (directives : Directives) (declaration : Declaration) :
    (directives.withRelation declaration).delimiter = directives.delimiter := by
  simp [withRelation, delimiter, get?_set]

theorem columns_withRelation (directives : Directives) (declaration : Declaration) :
    (directives.withRelation declaration).get? "attributeNames" =
      some (declaration.attributeNames directives.delimiter) := by
  simp [withRelation, get?_set]

end Directives

namespace Table

/-! ## Records and lines -/

/-- A text that can stand between delimiters. -/
def IsCell (delimiter : Char) (text : String) : Prop :=
  delimiter ∉ text.toList ∧ '\n' ∉ text.toList

instance (delimiter : Char) (text : String) : Decidable (IsCell delimiter text) :=
  inferInstanceAs (Decidable (_ ∧ _))

/-- A record as a line: its cells with the delimiter between neighbours. -/
def recordText (delimiter : String) (record : List String) : String :=
  line (delimiter.intercalate record)

/-- The lines of a text, each of which has its end. -/
def endedLines? (text : List Char) : Option (List (List Char)) :=
  let pieces := splitAt '\n' text
  -- Behind the end of the last line nothing is left.
  if pieces.getLast? = some [] then some pieces.dropLast else none

/-- The records of a table: its lines, cut at every delimiter. -/
def read? (delimiter : Char) (text : String) : Option (List (List String)) :=
  (endedLines? text.toList).map fun lines =>
    lines.map fun line => (splitAt delimiter line).map String.ofList

/-- What is in none of the parts and is not put between them is not in the whole. -/
theorem not_mem_intercalate {separator c : Char} (different : c ≠ separator) :
    ∀ {parts : List (List Char)}, (∀ part ∈ parts, c ∉ part) → c ∉ [separator].intercalate parts
  | [], _ => List.not_mem_nil
  | [part], without => by
    rw [List.intercalate_singleton]
    exact without part List.mem_cons_self
  | part :: next :: rest, without => by
    have later := not_mem_intercalate different fun other member =>
      without other (List.mem_cons_of_mem part member)
    rw [List.intercalate_cons_cons, List.mem_append, List.mem_append, List.mem_singleton]
    intro inside
    rcases inside with (inPart | same) | inRest
    · exact without part List.mem_cons_self inPart
    · exact different same
    · exact later inRest

/-- Lines with their ends are cut into the lines and an empty rest. -/
theorem splitAt_concat_line {texts : List String}
    (unbroken : ∀ text ∈ texts, '\n' ∉ text.toList) :
    splitAt '\n' (concat (texts.map line)).toList = texts.map String.toList ++ [[]] := by
  induction texts with
  | nil => rfl
  | cons text rest ih =>
    have first := unbroken text List.mem_cons_self
    have lineEnd : "\n".toList = ['\n'] := rfl
    rw [List.map_cons, concat_cons, line, String.toList_append, String.toList_append, lineEnd,
      List.append_assoc, List.singleton_append, splitAt_eq_splitOn,
      List.splitOn_append_cons_self_of_not_mem first, ← splitAt_eq_splitOn,
      ih fun other member => unbroken other (List.mem_cons_of_mem text member)]
    rfl

theorem endedLines?_concat_line {texts : List String}
    (unbroken : ∀ text ∈ texts, '\n' ∉ text.toList) :
    endedLines? (concat (texts.map line)).toList = some (texts.map String.toList) := by
  rw [endedLines?, splitAt_concat_line unbroken]
  simp only [List.getLast?_concat, List.dropLast_concat, if_true]

section Cells

variable {delimiter : Char} {record : List String}

/-- The line of a record has no line end inside. -/
theorem not_mem_intercalate_cells (unbroken : delimiter ≠ '\n')
    (cells : ∀ text ∈ record, IsCell delimiter text) :
    '\n' ∉ ((String.singleton delimiter).intercalate record).toList := by
  rw [String.toList_intercalate, String.toList_singleton]
  apply not_mem_intercalate unbroken.symm
  intro part member
  obtain ⟨text, inRecord, rfl⟩ := List.mem_map.mp member
  exact (cells text inRecord).2

/-- A line is cut into the cells of its record. -/
theorem splitAt_intercalate_cells (some_cell : record ≠ [])
    (cells : ∀ text ∈ record, IsCell delimiter text) :
    (splitAt delimiter ((String.singleton delimiter).intercalate record).toList).map
      String.ofList = record := by
  have without : ∀ part ∈ record.map String.toList, delimiter ∉ part := by
    intro part member
    obtain ⟨text, inRecord, rfl⟩ := List.mem_map.mp member
    exact (cells text inRecord).1
  have parts : record.map String.toList ≠ [] := mt List.map_eq_nil_iff.mp some_cell
  rw [String.toList_intercalate, String.toList_singleton, splitAt_eq_splitOn,
    List.splitOn_intercalate delimiter without parts, List.map_map]
  simp

/-- Records of cells that are written as lines are read back. -/
theorem read?_concat_recordText {records : List (List String)} (unbroken : delimiter ≠ '\n')
    (some_cell : ∀ record ∈ records, record ≠ [])
    (cells : ∀ record ∈ records, ∀ text ∈ record, IsCell delimiter text) :
    read? delimiter (concat (records.map (recordText (String.singleton delimiter)))) =
      some records := by
  -- The lines are found first: there is no line end in a cell, and the delimiter is none.
  let joined := records.map (String.singleton delimiter).intercalate
  have lines : records.map (recordText (String.singleton delimiter)) = joined.map line := by
    rw [List.map_map]
    rfl
  have noBreak : ∀ text ∈ joined, '\n' ∉ text.toList := by
    intro text member
    obtain ⟨record, written, rfl⟩ := List.mem_map.mp member
    exact not_mem_intercalate_cells unbroken (cells record written)
  rw [read?, lines, endedLines?_concat_line noBreak, Option.map_some, List.map_map, List.map_map]
  have cut : ∀ record ∈ records, (splitAt delimiter
      ((String.singleton delimiter).intercalate record).toList).map String.ofList = record :=
    fun record written =>
      splitAt_intercalate_cells (some_cell record written) (cells record written)
  exact congrArg some ((List.map_congr_left cut).trans (List.map_id records))

end Cells

/-- The records of a plain table: the column names, if they are asked for, and the tuples. -/
def records (directives : Directives) (columns : List String) (tuples : List (List Value)) :
    List (List String) :=
  (if directives.get? "headers" = some "true" then [columns] else []) ++
    tuples.map (List.map Value.written)

/-- What holds of the column names and of the values of each tuple holds of all records. -/
theorem forall_records {directives : Directives} {columns : List String}
    {tuples : List (List Value)} {holds : List String → Prop} (atColumns : holds columns)
    (atTuples : ∀ tuple ∈ tuples, holds (tuple.map Value.written)) :
    ∀ record ∈ records directives columns tuples, holds record := by
  intro record member
  rcases List.mem_append.mp member with header | row
  · split at header
    · exact List.mem_singleton.mp header ▸ atColumns
    · exact absurd header List.not_mem_nil
  · obtain ⟨tuple, listed, rfl⟩ := List.mem_map.mp row
    exact atTuples tuple listed

/-- A plain table of tuples that have values is the lines of its records. -/
theorem text_eq_concat_recordText {directives : Directives} {columns : List String}
    {tuples : List (List Value)} (nonempty : ∀ tuple ∈ tuples, tuple ≠ [])
    (named : directives.get? "attributeNames" = some (directives.delimiter.intercalate columns)) :
    text false directives tuples =
      concat ((records directives columns tuples).map (recordText directives.delimiter)) := by
  have rows : tuples.map (rowText directives.delimiter) =
      (tuples.map (List.map Value.written)).map (recordText directives.delimiter) := by
    rw [List.map_map]
    refine List.map_congr_left fun tuple member => ?_
    have notEmpty : tuple.isEmpty = false := List.isEmpty_eq_false_iff.mpr (nonempty tuple member)
    rw [rowText, notEmpty]
    rfl
  -- Without a frame nothing stands above the column names, and nothing below the rows.
  have opening : openingText false directives = columnsText directives := if_neg Bool.false_ne_true
  have closing : closingText false = "" := if_neg Bool.false_ne_true
  rw [text, opening, closing, String.append_empty, rowsText, rows, records, List.map_append,
    concat_append, columnsText, Directives.header?, named]
  by_cases headed : directives.get? "headers" = some "true"
  · rw [if_pos headed, if_pos headed]
    simp [recordText]
  · rw [if_neg headed, if_neg headed]
    simp

end Table

namespace TableWriter

open Table

variable {σ : Type} [Sink σ] {taken : σ → List UInt8}

/-- Rows are all taken one after another by a sink that takes everything. -/
theorem exists_writeRows_eq (keeps : Sink.Keeps taken) (tuples : List (List Value)) :
    ∀ writer : TableWriter σ, ∃ sink,
      writer.writeRows tuples = (tuples.map fun _ => .ok (), { writer with sink := sink }) ∧
        taken sink = taken writer.sink ++ bytesOf (rowsText writer.delimiter tuples) := by
  induction tuples with
  | nil => exact fun writer => ⟨writer.sink, rfl, by simp⟩
  | cons tuple rest ih =>
    intro writer
    obtain ⟨after, written, held⟩ := exists_writeRow_eq keeps.gathers writer rfl tuple
    obtain ⟨last, writtenRest, heldRest⟩ := ih { writer with sink := after }
    refine ⟨last, ?_, ?_⟩
    · simp only [writeRows, written, writtenRest, List.map_cons]
    · rw [heldRest, held, rowsText_cons, bytesOf_append, List.append_assoc]

/-- A table of either kind that is opened, filled and finished on a sink that takes everything:
each step succeeds, and the sink holds all of the table. -/
theorem writeTable_ok (keeps : Sink.Keeps taken) (framed : Bool) (directives : Directives)
    (sink : σ) (tuples : List (List Value)) :
    let opened := openTable framed directives sink
    let filled := opened.2.writeRows tuples
    let finished := filled.2.finish
    opened.1 = .ok () ∧ filled.1 = tuples.map (fun _ => .ok ()) ∧ finished.1 = .ok () ∧
      taken finished.2.sink = taken sink ++ bytesOf (Table.text framed directives tuples) := by
  intro opened filled finished
  obtain ⟨begun, openedEq, heldOpening⟩ :=
    exists_openTable_eq keeps.gathers framed directives sink rfl
  obtain ⟨last, filledEq, heldRows⟩ := exists_writeRows_eq keeps tuples opened.2
  obtain ⟨ended, finishedEq, held⟩ := exists_finish_eq keeps.gathers filled.2 rfl
  refine ⟨congrArg Prod.fst openedEq, congrArg Prod.fst filledEq, congrArg Prod.fst finishedEq, ?_⟩
  have filledSink : filled.2 = { opened.2 with sink := last } := congrArg Prod.snd filledEq
  have openedWriter : opened.2 = ⟨begun, directives.delimiter, closing? framed⟩ :=
    congrArg Prod.snd openedEq
  have finishedSink : finished.2.sink = ended :=
    congrArg (fun answer => answer.2.sink) finishedEq
  rw [finishedSink, held, filledSink, heldRows, openedWriter, heldOpening, getD_closing?,
    Table.text, bytesOf_append, bytesOf_append, List.append_assoc, List.append_assoc,
    List.append_assoc]

/-- A plain table can be read back. The delimiter is one character, and the declaration has been
given to the directives when it was in effect; other directives may be set before and after that.
As long as no column name and no value holds the delimiter or a line end, opening, filling and
finishing the table on a fresh sink that takes everything succeed, and the text on the sink is read
as the column names, if they are asked for, and the tuples, value by value. -/
theorem table_read_back (keeps : Sink.Keeps taken) (sink : σ) (delimiter : Char)
    (base : Directives) (declaration : Declaration) (later : List (String × String))
    (tuples : List (List Value)) (fresh : taken sink = []) (unbroken : delimiter ≠ '\n')
    (delimited : base.delimiter = String.singleton delimiter) (columns : 1 ≤ declaration.arity)
    (leaves : ∀ setting ∈ later, Directives.LeavesColumns (String.singleton delimiter)
      (declaration.attributeNames (String.singleton delimiter)) setting)
    (names : ∀ column ∈ declaration.attributes, IsCell delimiter column.name)
    (values : ∀ tuple ∈ tuples, tuple.length = declaration.arity ∧
      ∀ value ∈ tuple, IsCell delimiter value.written) :
    let directives := (base.withRelation declaration).setAll later
    let opened := openPlain directives sink
    let filled := opened.2.writeRows tuples
    let finished := filled.2.finish
    let text := Table.text false directives tuples
    opened.1 = .ok () ∧ filled.1 = tuples.map (fun _ => .ok ()) ∧ finished.1 = .ok () ∧
      taken finished.2.sink = bytesOf text ∧
        Table.read? delimiter text =
          some (records directives (declaration.attributes.map Attribute.name) tuples) := by
  intro directives opened filled finished text
  obtain ⟨begun, answers, ended, held⟩ := writeTable_ok keeps false directives sink tuples
  rw [fresh, List.nil_append] at held
  refine ⟨begun, answers, ended, held, ?_⟩
  -- The columns were joined by the delimiter that is still in effect when the rows are written.
  have named := Directives.columns_withRelation base declaration
  rw [delimited] at named
  obtain ⟨sameDelimiter, sameColumns⟩ := Directives.setAll_leaves
    ((base.delimiter_withRelation declaration).trans delimited) named leaves
  have joined : directives.get? "attributeNames" =
      some (directives.delimiter.intercalate (declaration.attributes.map Attribute.name)) := by
    rw [sameColumns, sameDelimiter, Declaration.attributeNames]
  -- There is a column at least, so neither the column names nor a tuple is an empty record.
  have nonempty {α : Type} {cells : List α} (width : cells.length = declaration.arity) :
      cells ≠ [] := List.ne_nil_of_length_pos (width ▸ columns)
  have filledRows : ∀ tuple ∈ tuples, tuple ≠ [] :=
    fun tuple member => nonempty (values tuple member).1
  have whole : text = concat ((records directives (declaration.attributes.map Attribute.name)
      tuples).map (recordText (String.singleton delimiter))) := by
    rw [← sameDelimiter]
    exact text_eq_concat_recordText filledRows joined
  rw [whole]
  apply read?_concat_recordText unbroken
  · apply forall_records
    · exact mt List.map_eq_nil_iff.mp (nonempty rfl)
    · exact fun tuple member => mt List.map_eq_nil_iff.mp (filledRows tuple member)
  · apply forall_records
    · exact List.forall_mem_map.mpr names
    · exact fun tuple member => List.forall_mem_map.mpr (values tuple member).2

end TableWriter

namespace EmptyValues

def declaration : Declaration :=
  ⟨⟨["pair"]⟩, [⟨"left", .symbol⟩, ⟨"right", .symbol⟩]⟩

def tuples : List (List Value) :=
  [[.text "", .text "a"], [.text "", .text ""]]

/-- Values without any text are read back as such. -/
theorem read_back :
    let directives := ((Directives.ofList [("delimiter", ",")]).withRelation declaration).setAll
      [("headers", "true")]
    let opened := TableWriter.openPlain directives Spool.empty
    let finished := (opened.2.writeRows tuples).2.finish
    Table.read? ',' finished.2.sink.held = some [["left", "right"], ["", "a"], ["", ""]] := by
  intro directives opened finished
  obtain ⟨-, -, -, held, read⟩ := TableWriter.table_read_back Spool.keeps Spool.empty ','
    (Directives.ofList [("delimiter", ",")]) declaration [("headers", "true")] tuples
    bytesOf_empty (by decide) (by decide) (by decide) (by decide) (by decide) (by decide)
  rw [bytesOf_injective held]
  exact read

end EmptyValues

end DatalogStrata
