import DatalogStrata.Output.Layout
import DatalogStrata.Proofs.Output.Sink

/-!
# Tables on a sink that fills up

The pieces by which a table is written make up its lines. On a sink with bounded room a table is
cut off where the room ends, wherever that is, and a step of the writer succeeds exactly when what
it writes ends within the room.

## Main results

* `Table.concat_rowPieces`, `Table.concat_openingPieces` — what the pieces make up
* `TableWriter.taken_finish_eq_abandon` — finishing a table or giving it up comes to the same
* `TableWriter.table_on_bounded_sink` — a table that is opened, filled and brought to its end on a
  sink with bounded room
-/

namespace DatalogStrata

namespace Table

/-! ## Pieces and lines -/

/-- The texts by which a table of either kind is opened, in order. -/
def openingPieces (framed : Bool) (directives : Directives) : List String :=
  if framed then framedOpening directives else plainOpening directives

theorem concat_plainOpening (directives : Directives) :
    concat (plainOpening directives) = columnsText directives := by
  unfold plainOpening columnsText
  cases directives.header? <;> simp [line]

/-- The pieces of an opening make up its lines. -/
theorem concat_openingPieces (framed : Bool) (directives : Directives) :
    concat (openingPieces framed directives) = openingText framed directives := by
  cases framed with
  | false => exact concat_plainOpening directives
  | true =>
    simp [openingPieces, openingText, framedOpening, concat_plainOpening, line, String.append_assoc]

theorem intercalate_written (delimiter : String) (first : Value) (others : List Value) :
    delimiter.intercalate ((first :: others).map Value.written) =
      first.written ++ concat (others.map fun value => delimiter ++ value.written) := by
  induction others generalizing first with
  | nil => simp
  | cons second others ih =>
    rw [List.map_cons, List.map_cons, String.intercalate_cons_cons, ← List.map_cons, ih]
    simp only [List.map_cons, concat_cons, String.append_assoc]

/-- The pieces of a row make up its line. -/
theorem concat_rowPieces (delimiter : String) (tuple : List Value) :
    concat (rowPieces delimiter tuple) = rowText delimiter tuple := by
  cases tuple with
  | nil => rfl
  | cons first others =>
    rw [rowPieces, rowText, List.isEmpty_cons, intercalate_written]
    simp [concat_flatMap, Value.written, line, String.append_assoc]

theorem rowText_ne_empty (delimiter : String) (tuple : List Value) :
    rowText delimiter tuple ≠ "" := by
  simp [rowText, line]

@[simp] theorem rowsText_nil (delimiter : String) : rowsText delimiter [] = "" := rfl

@[simp] theorem rowsText_cons (delimiter : String) (tuple : List Value)
    (tuples : List (List Value)) :
    rowsText delimiter (tuple :: tuples) = rowText delimiter tuple ++ rowsText delimiter tuples :=
  rfl

/-- The text with which a table is still to be closed, once it is open. -/
def closing? (framed : Bool) : Option String :=
  if framed then some (line rowRule) else none

@[simp] theorem getD_closing? (framed : Bool) : (closing? framed).getD "" = closingText framed := by
  cases framed <;> rfl

end Table

namespace TableWriter

open Table

theorem openTable_eq {σ : Type} [Sink σ] (framed : Bool) (directives : Directives) (sink : σ) :
    openTable framed directives sink =
      openWith (openingPieces framed directives) (closing? framed) directives sink := by
  cases framed <;> rfl

/-- Of a table that has been finished nothing is left to write. -/
theorem abandon_finish {σ : Type} [Sink σ] (writer : TableWriter σ) :
    writer.finish.2.abandon = writer.finish.2.sink := rfl

/-! ## Writing to a sink that takes everything -/

section Unbounded

variable {σ : Type} [Sink σ] {gathered : σ → List UInt8 → Prop} (gathers : Sink.Gathers gathered)
include gathers

/-- A table of either kind is opened without failure. -/
theorem exists_openTable_eq (framed : Bool) (directives : Directives) (sink : σ)
    {bytes : List UInt8} (before : gathered sink bytes) :
    ∃ opened, openTable framed directives sink =
        (.ok (), ⟨opened, directives.delimiter, closing? framed⟩) ∧
      gathered opened (bytes ++ bytesOf (openingText framed directives)) := by
  have accepted := gathers.writeAll_ok (openingPieces framed directives) sink
  have held := gathers.writeAll (openingPieces framed directives) before
  rw [concat_openingPieces] at held
  rw [openTable_eq]
  exact ⟨_, Prod.ext accepted rfl, held⟩

theorem writeLast_ok (sink : σ) (text : String) : (writeLast sink text).1 = .ok () := by
  rw [writeLast, gathers.write_eq]
  exact gathers.flush_ok _

theorem gathered_writeLast {sink : σ} {bytes : List UInt8} (before : gathered sink bytes)
    (text : String) : gathered (writeLast sink text).2 (bytes ++ bytesOf text) := by
  rw [writeLast, gathers.write_eq]
  exact gathers.flush (gathers.write before text)

variable (writer : TableWriter σ)

theorem writeRow_ok (tuple : List Value) : (writer.writeRow tuple).1 = .ok () :=
  gathers.writeAll_ok ..

theorem finish_ok : writer.finish.1 = .ok () :=
  writeLast_ok gathers ..

variable {bytes : List UInt8} (before : gathered writer.sink bytes)
include before

/-- A row is taken, and only the sink of the writer is another one afterwards. -/
theorem exists_writeRow_eq (tuple : List Value) :
    ∃ sink, writer.writeRow tuple = (.ok (), { writer with sink := sink }) ∧
      gathered sink (bytes ++ bytesOf (rowText writer.delimiter tuple)) := by
  have held := gathers.writeAll (rowPieces writer.delimiter tuple) before
  rw [concat_rowPieces] at held
  exact ⟨_, Prod.ext (writeRow_ok gathers writer tuple) rfl, held⟩

/-- A table is closed without failure, and nothing is left to close. -/
theorem exists_finish_eq :
    ∃ sink, writer.finish = (.ok (), { writer with sink := sink, closing := none }) ∧
      gathered sink (bytes ++ bytesOf (writer.closing.getD "")) :=
  ⟨_, Prod.ext (finish_ok gathers writer) rfl, gathered_writeLast gathers before _⟩

theorem gathered_abandon :
    gathered writer.abandon (bytes ++ bytesOf (writer.closing.getD "")) := by
  unfold abandon
  cases writer.closing with
  | none => simpa using before
  | some closing => exact gathered_writeLast gathers before closing

end Unbounded

/-- A table that is given up holds as much as one that is finished. -/
theorem taken_finish_eq_abandon {σ : Type} [Sink σ] {taken : σ → List UInt8}
    (keeps : Sink.Keeps taken) (writer : TableWriter σ) :
    taken writer.finish.2.abandon = taken writer.abandon := by
  obtain ⟨sink, finished, held⟩ := exists_finish_eq keeps.gathers writer rfl
  rw [gathered_abandon keeps.gathers writer rfl, ← held, finished]
  rfl

/-! ## Writing to a sink that fills up -/

section Bounded

variable {room : Nat} {offered : List UInt8}

theorem offered_openTable (framed : Bool) (directives : Directives) (room : Nat) :
    (openTable framed directives (BoundedSink.start (some room))).2.sink.Offered room
      (bytesOf (openingText framed directives)) := by
  have start := BoundedSink.offered_start room
  rw [openTable_eq, ← concat_openingPieces]
  exact start.writeAll _

theorem openTable_eq_ok_iff (framed : Bool) (directives : Directives) (room : Nat) :
    (openTable framed directives (BoundedSink.start (some room))).1 = .ok () ↔
      (bytesOf (openingText framed directives)).length ≤ room := by
  have taken := (BoundedSink.offered_start room).writeAll_eq_ok_iff
    (openingPieces framed directives)
  rw [concat_openingPieces, List.nil_append] at taken
  rw [openTable_eq]
  -- A plain table without column names writes nothing, which fits as well.
  refine taken.trans (or_iff_right_of_imp fun empty => ?_)
  rw [empty, bytesOf_empty]
  exact Nat.zero_le room

/-- Each row ends within the room or is refused, and what was offered grows by all rows. -/
theorem offered_writeRows (tuples : List (List Value)) :
    ∀ {writer : TableWriter BoundedSink} {offered : List UInt8},
      writer.sink.Offered room offered →
        (writer.writeRows tuples).2.sink.Offered room
          (offered ++ bytesOf (rowsText writer.delimiter tuples)) ∧
        (writer.writeRows tuples).2.closing = writer.closing ∧
        (writer.writeRows tuples).1.length = tuples.length ∧
        ∀ place answer, (writer.writeRows tuples).1[place]? = some answer →
          (answer = .ok () ↔ (offered ++ bytesOf
            (rowsText writer.delimiter (tuples.take (place + 1)))).length ≤ room) := by
  induction tuples with
  | nil =>
    intro writer offered sunk
    simpa [writeRows] using sunk
  | cons tuple tuples ih =>
    intro writer offered sunk
    have after := sunk.writeAll (rowPieces writer.delimiter tuple)
    have taken := sunk.writeAll_eq_ok_iff (rowPieces writer.delimiter tuple)
    rw [concat_rowPieces] at after taken
    -- The other rows are tried whether or not the first was taken: the sink was offered it anyway.
    obtain ⟨held, closing, answered, answers⟩ :=
      @ih (writer.writeRow tuple).2 _ after
    refine ⟨?_, closing, congrArg Nat.succ answered, ?_⟩
    · simpa [writeRows, writeRow, List.append_assoc] using held
    · rintro (_ | place) answer given
      · obtain rfl : (writer.writeRow tuple).1 = answer := Option.some_inj.mp given
        simpa [writeRow, rowText_ne_empty] using taken
      · simpa [writeRow, List.append_assoc] using answers place answer given

theorem offered_writeLast {sink : BoundedSink} (sunk : sink.Offered room offered) (text : String) :
    (writeLast sink text).2.Offered room (offered ++ bytesOf text) ∧
      ((writeLast sink text).1 = .ok () ↔ text = "" ∨ (offered ++ bytesOf text).length ≤ room) := by
  have after := sunk.write text
  have taken := sunk.write_eq_ok_iff text
  unfold writeLast
  cases written : Sink.write sink text with
  | mk answer rest =>
    rw [written] at after taken
    cases answer with
    | ok => exact ⟨after.flush, taken⟩
    | error => exact ⟨after, by simpa using taken⟩

variable {writer : TableWriter BoundedSink} {framed : Bool}

theorem offered_finish (toClose : writer.closing = closing? framed)
    (sunk : writer.sink.Offered room offered) :
    writer.finish.2.sink.Offered room (offered ++ bytesOf (closingText framed)) ∧
      (writer.finish.1 = .ok () ↔
        framed = false ∨ (offered ++ bytesOf (closingText framed)).length ≤ room) := by
  have last := offered_writeLast sunk (closingText framed)
  have nothing : closingText framed = "" ↔ framed = false := by cases framed <;> decide
  rw [nothing] at last
  simpa only [finish, toClose, getD_closing?] using last

theorem offered_abandon (toClose : writer.closing = closing? framed)
    (sunk : writer.sink.Offered room offered) :
    writer.abandon.Offered room (offered ++ bytesOf (closingText framed)) := by
  rw [abandon, toClose]
  cases framed with
  | true => exact (offered_writeLast sunk _).1
  | false =>
    have nothing : bytesOf (closingText false) = [] := bytesOf_empty
    rw [nothing, List.append_nil]
    exact sunk

end Bounded

/-- A table of either kind on a sink with bounded room. Opening it succeeds when the lines above the
rows fit. Then every tuple is tried, and each is taken when the table up to and including its row
fits; a framed table is finished with success when all of it fits, and a plain one always. What is
stored is the beginning of the whole table, as much as there is room for, whether the table is
finished, given up, or given up after it has been finished: the closing rule is not written
again. -/
theorem table_on_bounded_sink (framed : Bool) (directives : Directives)
    (tuples : List (List Value)) (room : Nat) :
    let opening := Table.openingText framed directives
    let upTo (count : Nat) := opening ++ rowsText directives.delimiter (tuples.take count)
    let whole := bytesOf (Table.text framed directives tuples)
    let opened := openTable framed directives (BoundedSink.start (some room))
    let filled := opened.2.writeRows tuples
    let finished := filled.2.finish
    (opened.1 = .ok () ↔ (bytesOf opening).length ≤ room) ∧
    (opened.1 ≠ .ok () → opened.2.sink.content = (bytesOf opening).take room) ∧
    (opened.1 = .ok () →
      filled.1.length = tuples.length ∧
      (∀ place answer, filled.1[place]? = some answer →
        (answer = .ok () ↔ (bytesOf (upTo (place + 1))).length ≤ room)) ∧
      (framed = true → (finished.1 = .ok () ↔ whole.length ≤ room)) ∧
      (framed = false → finished.1 = .ok ()) ∧
      finished.2.sink.content = whole.take (min room whole.length) ∧
      finished.2.abandon = finished.2.sink ∧
      filled.2.abandon.content = whole.take (min room whole.length)) := by
  intro opening upTo whole opened filled finished
  have sunk : opened.2.sink.Offered room (bytesOf opening) :=
    offered_openTable framed directives room
  have delimited : opened.2.delimiter = directives.delimiter := by
    simp only [opened, openTable_eq, openWith]
  have toClose : opened.2.closing = closing? framed := by
    simp only [opened, openTable_eq, openWith]
  obtain ⟨held, closing, answered, answers⟩ := offered_writeRows tuples sunk
  rw [toClose] at closing
  rw [delimited] at held answers
  -- Whatever has been refused, in the end the sink was offered the whole table.
  have wholeEq : whole = bytesOf opening ++
      bytesOf (rowsText directives.delimiter tuples) ++ bytesOf (closingText framed) := by
    rw [← bytesOf_append, ← bytesOf_append]
    rfl
  obtain ⟨ended, ending⟩ := offered_finish closing held
  have given_up := offered_abandon closing held
  rw [← wholeEq] at ended ending given_up
  rw [← List.take_eq_take_min]
  refine ⟨openTable_eq_ok_iff framed directives room, fun _ => sunk.content_eq, fun _ =>
    ⟨answered, ?_, ?_, ?_, ended.content_eq, abandon_finish _, given_up.content_eq⟩⟩
  · intro place answer given
    rw [answers place answer given, ← bytesOf_append]
  · rintro rfl
    simpa using ending
  · exact fun plain => ending.mpr (Or.inl plain)

end TableWriter

end DatalogStrata
