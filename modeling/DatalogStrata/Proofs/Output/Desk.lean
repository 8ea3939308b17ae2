import DatalogStrata.Output.Desk
import DatalogStrata.Proofs.Files.Tree
import DatalogStrata.Proofs.Output.Compressor
import DatalogStrata.Proofs.Output.Table

/-!
# Requests at a desk

What becomes of a request depends on the files, on the console and on the writer that bears the
identifier. So two desks that have these in common cannot be told apart by any requests.

## Main definitions

* `Desk.Ended` — what a desk can be once a writer has come to its end
* `Desk.Handled` — what a request does, case by case
* `Desk.Alike` — two desks with the same files, the same console, and the same writers

## Main results

* `Desk.finish_done`, `Desk.finish_eq` — to finish a writer succeeds, and when it is to drop it
* `Desk.handled` — every request is one of the cases
* `Desk.Alike.handle` — desks that are alike stay alike
-/

namespace DatalogStrata

theorem Spool.openTable_eq (framed : Bool) (directives : Directives) :
    TableWriter.openTable framed directives Spool.empty =
      (.ok (), ⟨⟨Table.openingText framed directives⟩, directives.delimiter,
        Table.closing? framed⟩) := by
  obtain ⟨⟨held⟩, opens, taken⟩ :=
    TableWriter.exists_openTable_eq Spool.keeps.gathers framed directives Spool.empty rfl
  have text : held = "" ++ Table.openingText framed directives := eq_append_of_bytesOf taken
  rw [opens, text, String.empty_append]

theorem Spool.writeRow_eq (writer : TableWriter Spool) (values : List Value) :
    writer.writeRow values = (.ok (), { writer with
      sink := ⟨writer.sink.held ++ Table.rowText writer.delimiter values⟩ }) := by
  obtain ⟨⟨held⟩, writes, taken⟩ :=
    TableWriter.exists_writeRow_eq Spool.keeps.gathers writer rfl values
  have text : held = writer.sink.held ++ Table.rowText writer.delimiter values :=
    eq_append_of_bytesOf taken
  rw [writes, text]

namespace Desk

variable {ε : Type} {desk other : Desk ε} {id : String} {writer : Writer ε}

/-! ## The writers at a desk -/

@[simp] theorem writer?_remove (desk : Desk ε) (id name : String) :
    (desk.remove id).writer? name = if name = id then none else desk.writer? name := by
  unfold writer? remove
  split
  case isTrue same =>
    rw [same, Option.map_eq_none_iff, List.find?_eq_none]
    intro entry kept
    simpa using (List.mem_filter.mp kept).2
  case isFalse different => rw [find?_filter_key _ different]

@[simp] theorem writer?_keep (desk : Desk ε) (id name : String) (writer : Writer ε) :
    (desk.keep id writer).writer? name =
      if name = id then some writer else desk.writer? name := by
  split
  case isTrue same => simp [writer?, keep, same]
  case isFalse different =>
    have others := writer?_remove desk id name
    rw [if_neg different] at others
    rw [← others, writer?, writer?, keep, List.find?_cons_of_neg]
    simpa using Ne.symm different

theorem writer?_congr (same : other.writers = desk.writers) (id : String) :
    other.writer? id = desk.writer? id := by
  rw [writer?, same, writer?]

/-- A desk with other writers. -/
def withWriters (desk : Desk ε) (writers : List (String × Writer ε)) : Desk ε :=
  { desk with writers := writers }

section Carried

variable (desk : Desk ε) (writers : List (String × Writer ε))

theorem writeSize_withWriters (count : Nat) (writer : Writer ε) :
    (desk.withWriters writers).writeSize count writer =
      let (reply, writer, desk) := desk.writeSize count writer
      (reply, writer, desk.withWriters writers) := by
  cases writer <;> rfl

theorem writers_writeSize (count : Nat) (writer : Writer ε) :
    (desk.writeSize count writer).2.2.writers = desk.writers := by
  cases writer <;> rfl

end Carried

/-- A writer of the console prints its opening at once. -/
theorem openConsole_eq (desk : Desk ε) (directives : Directives) :
    desk.openConsole directives =
      .ok (.console ⟨Spool.empty, directives.delimiter, Table.closing? true⟩,
        desk.print (Table.openingText true directives)) := by
  -- The table answers first, and what it holds then is printed.
  change (TableWriter.openTable true directives Spool.empty).1.bind _ = _
  rw [Spool.openTable_eq]
  change Except.ok (desk.printHeld (TableWriter.openTable true directives Spool.empty).2) = _
  rw [Spool.openTable_eq]
  rfl

/-! ## Desks that are alike -/

/-- Two desks with the same files, the same console, and the same writers under all identifiers. -/
structure Alike (desk other : Desk ε) : Prop where
  files_eq : other.files = desk.files
  printed_eq : other.printed = desk.printed
  writer?_eq : ∀ id, other.writer? id = desk.writer? id

namespace Alike

theorem refl (desk : Desk ε) : desk.Alike desk :=
  ⟨rfl, rfl, fun _ => rfl⟩

theorem eq_withWriters (alike : desk.Alike other) : other = desk.withWriters other.writers := by
  obtain ⟨files, printed, -⟩ := alike
  cases other
  simp_all [withWriters]

theorem remove (alike : desk.Alike other) (id : String) :
    (desk.remove id).Alike (other.remove id) :=
  ⟨alike.files_eq, alike.printed_eq, fun name => by
    rw [writer?_remove, writer?_remove, alike.writer?_eq]⟩

theorem keep (alike : desk.Alike other) (id : String) (writer : Writer ε) :
    (desk.keep id writer).Alike (other.keep id writer) :=
  ⟨alike.files_eq, alike.printed_eq, fun name => by
    rw [writer?_keep, writer?_keep, alike.writer?_eq]⟩

/-- What leaves the writers alone comes to the same at desks that are alike. -/
theorem carried (alike : desk.Alike other) {after : Desk ε} (same : after.writers = desk.writers) :
    after.Alike (after.withWriters other.writers) := by
  refine ⟨rfl, rfl, fun id => ?_⟩
  rw [writer?_congr same, ← alike.writer?_eq]
  rfl

/-- To remember a writer that is there already makes no difference. -/
theorem keep_self (present : desk.writer? id = some writer) : desk.Alike (desk.keep id writer) := by
  refine ⟨rfl, rfl, fun name => ?_⟩
  rw [writer?_keep]
  split
  case isTrue same => rw [same, present]
  case isFalse => rfl

end Alike

variable [Compressor ε]

/-! ## Finishing and dropping -/

/-- To finish a writer always succeeds. -/
theorem finish_done (desk : Desk ε) (writer : Writer ε) : (desk.finish writer).1 = .done := by
  cases writer with
  | file path position table =>
    simp only [finish, TableWriter.finish_ok BlockBuffer.keeps.gathers table, Reply.ofResult]
  | archive path position table =>
    have finished := TableWriter.finish_ok (PackedBuffer.gathers []) table
    rw [finish]
    split
    · rfl
    · simp_all
  | console table =>
    simp only [finish, TableWriter.finish_ok Spool.keeps.gathers table, Reply.ofResult]
  | size sizes => rfl

/-- To finish a writer is to drop it, but for the encoder of a compressed file. -/
theorem finish_eq (desk : Desk ε) {writer : Writer ε}
    (direct : ∀ path position table, writer ≠ .archive path position table) :
    (desk.finish writer).2 = desk.release writer := by
  cases writer with
  | file path position table =>
    have same := TableWriter.taken_finish_eq_abandon BlockBuffer.keeps table
    simp only [finish, release, same]
  | archive path position table => exact absurd rfl (direct path position table)
  | console table =>
    have same := bytesOf_injective (TableWriter.taken_finish_eq_abandon Spool.keeps table)
    simp only [finish, release, same]
  | size sizes => rfl

/-- What a desk can be once a writer has come to its end. -/
inductive Ended (desk : Desk ε) (writer : Writer ε) : Desk ε → Prop
  | finished : Ended desk writer (desk.finish writer).2
  | released : Ended desk writer (desk.release writer)

/-! ## Requests to a writer -/

/-- A request to no writer changes nothing. -/
theorem handle_none (absent : desk.writer? id = none) {request : Request}
    (noOpening : ∀ name directives, request ≠ .open name directives) :
    desk.handle id request = (.noWriter, desk) := by
  cases request with
  | «open» name directives => exact absurd rfl (noOpening name directives)
  | _ => simp only [handle, absent]

theorem handle_tuple (found : desk.writer? id = some writer) (values : List Value) :
    desk.handle id (.tuple values) =
      let (reply, writer, desk) := desk.writeTuple values writer
      (reply, desk.keep id writer) := by
  simp only [handle, found]

theorem handle_size (found : desk.writer? id = some writer) (count : Nat) :
    desk.handle id (.size count) =
      let (reply, writer, desk) := desk.writeSize count writer
      (reply, desk.keep id writer) := by
  simp only [handle, found]

theorem handle_finish (found : desk.writer? id = some writer) :
    desk.handle id .finish = (.done, ((desk.remove id).finish writer).2) := by
  simp only [handle, found, ← finish_done (desk.remove id) writer]

theorem drop_eq (found : desk.writer? id = some writer) :
    desk.drop id = (desk.remove id).release writer := by
  simp only [drop, found]

theorem handle_drop (found : desk.writer? id = some writer) :
    desk.handle id .drop = (.dropped, desk.drop id) := by
  simp only [handle, found]

/-! ## Opening writers -/

section Carried

variable (desk : Desk ε) (writers : List (String × Writer ε))

theorem release_withWriters (writer : Writer ε) :
    (desk.withWriters writers).release writer = (desk.release writer).withWriters writers := by
  cases writer <;> rfl

theorem finish_withWriters (writer : Writer ε) :
    (desk.withWriters writers).finish writer =
      let (reply, desk) := desk.finish writer
      (reply, desk.withWriters writers) := by
  cases writer <;> rfl

theorem writers_release (writer : Writer ε) : (desk.release writer).writers = desk.writers := by
  cases writer <;> rfl

theorem writers_finish (writer : Writer ε) : (desk.finish writer).2.writers = desk.writers := by
  cases writer <;> rfl

theorem Ended.writers_eq {desk after : Desk ε} {writer : Writer ε}
    (ended : desk.Ended writer after) : after.writers = desk.writers := by
  cases ended with
  | finished => exact writers_finish desk writer
  | released => exact writers_release desk writer

theorem writeTuple_withWriters (values : List Value) (writer : Writer ε) :
    (desk.withWriters writers).writeTuple values writer =
      let (reply, writer, desk) := desk.writeTuple values writer
      (reply, writer, desk.withWriters writers) := by
  cases writer <;> rfl

theorem writers_writeTuple (values : List Value) (writer : Writer ε) :
    (desk.writeTuple values writer).2.2.writers = desk.writers := by
  cases writer <;> rfl

end Carried

/-- The writer of a file that has been created. -/
def fileWriter (desk : Desk ε) (file : List String) (directives : Directives) :
    Writer ε × Desk ε :=
  if directives.compress then
    desk.storePacked file 0 (TableWriter.openTable false directives PackedBuffer.empty).2
  else desk.storeSent file 0 (TableWriter.openTable false directives BlockBuffer.empty).2

theorem fileWriter_compressed {directives : Directives} (compressed : directives.compress = true)
    (desk : Desk ε) (file : List String) :
    ∃ sink : PackedBuffer ε, sink.Gathered [] (bytesOf (Table.openingText false directives)) ∧
      fileWriter desk file directives =
        desk.storePacked file 0 ⟨sink, directives.delimiter, none⟩ := by
  obtain ⟨sink, opens, gathered⟩ := TableWriter.exists_openTable_eq (PackedBuffer.gathers [])
    false directives PackedBuffer.empty (PackedBuffer.gathered_empty (ε := ε))
  refine ⟨sink, gathered, ?_⟩
  rw [fileWriter, compressed, opens]
  rfl

theorem fileWriter_plain {directives : Directives} (plain : directives.compress = false)
    (desk : Desk ε) (file : List String) :
    ∃ buffer : BlockBuffer, buffer.rest = bytesOf (Table.openingText false directives) ∧
      fileWriter desk file directives =
        desk.storeSent file 0 ⟨buffer, directives.delimiter, none⟩ := by
  obtain ⟨buffer, opens, held⟩ :=
    TableWriter.exists_openTable_eq BlockBuffer.keeps.gathers false directives BlockBuffer.empty rfl
  refine ⟨buffer, held, ?_⟩
  rw [fileWriter, plain, opens]
  rfl

theorem openFile_eq (desk : Desk ε) (directives : Directives) :
    desk.openFile directives = directives.fileName.bind fun path =>
      match desk.files.create path with
      | .error cause => .error (.file cause)
      | .ok (file, files) => .ok (fileWriter { desk with files := files } file directives) := by
  rw [openFile]
  rcases directives.fileName with cause | path
  · rfl
  · rcases created : desk.files.create path with cause | ⟨file, files⟩
    · simp [created, bind, Except.bind]
    · -- Once there is a file, neither kind of writer refuses the lines above the rows.
      obtain ⟨buffer, plain, -⟩ := TableWriter.exists_openTable_eq BlockBuffer.keeps.gathers
        false directives BlockBuffer.empty rfl
      obtain ⟨sink, packed, -⟩ := TableWriter.exists_openTable_eq (PackedBuffer.gathers [])
        false directives PackedBuffer.empty (PackedBuffer.gathered_empty (ε := ε))
      simp only [TableWriter.openTable, Bool.false_eq_true, if_false] at plain packed
      by_cases compressed : directives.compress <;>
        simp [created, plain, packed, compressed, fileWriter, TableWriter.openTable, bind,
          Except.bind, pure, Except.pure]

theorem openNamed_eq (desk : Desk ε) (name : String) (directives : Directives) :
    desk.openNamed name directives = (WriterKind.parse name).bind fun kind =>
      match kind with
      | .file => desk.openFile directives
      | .console => desk.openConsole directives
      | .size => .ok (.size ⟨Spool.empty, directives.relationName⟩, desk) := rfl

theorem openNamed_withWriters (desk : Desk ε) (writers : List (String × Writer ε)) (name : String)
    (directives : Directives) :
    (desk.withWriters writers).openNamed name directives =
      (desk.openNamed name directives).map fun opened =>
        (opened.1, opened.2.withWriters writers) := by
  rw [openNamed_eq, openNamed_eq]
  rcases WriterKind.parse name with cause | _ | _ | _
  · rfl
  · change openFile _ _ = (openFile _ _).map _
    rw [openFile_eq, openFile_eq]
    rcases directives.fileName with cause | path
    · rfl
    · simp only [withWriters, Except.bind]
      rcases desk.files.create path with cause | ⟨file, files⟩
      · rfl
      · by_cases compressed : directives.compress <;>
          simp [fileWriter, compressed, Except.map, storeSent, storePacked, store]
  · change openConsole _ _ = (openConsole _ _).map _
    rw [openConsole_eq, openConsole_eq]
    rfl
  · rfl

theorem openWriter_withWriters (desk : Desk ε) (writers : List (String × Writer ε))
    (name : Option String) (directives : Directives) :
    (desk.withWriters writers).openWriter name directives =
      (desk.openWriter name directives).map fun opened =>
        (opened.1, opened.2.withWriters writers) := by
  cases name with
  | some name => exact openNamed_withWriters desk writers name directives
  | none =>
    change directives.writerName.bind _ = (directives.writerName.bind _).map _
    cases directives.writerName with
    | error cause => rfl
    | ok name => exact openNamed_withWriters desk writers name directives

/-- To open a writer leaves the others as they are. -/
theorem writers_openWriter {name : Option String} {directives : Directives} {writer : Writer ε}
    (opens : desk.openWriter name directives = .ok (writer, other)) :
    other.writers = desk.writers := by
  -- A desk is itself with the writers that it has.
  have carried := openWriter_withWriters desk desk.writers name directives
  change desk.openWriter name directives = _ at carried
  rw [opens, Except.map, Except.ok.injEq, Prod.mk.injEq] at carried
  rw [carried.2]
  rfl

/-- A writer that is opened is of one of three kinds, and its opening does what its kind does. -/
theorem openNamed_eq_ok {name : String} {directives : Directives}
    (opens : desk.openNamed name directives = .ok (writer, other)) :
    (∃ path file files, directives.get? "filename" = some path ∧
      desk.files.create path = .ok (file, files) ∧
      fileWriter { desk with files := files } file directives = (writer, other)) ∨
    (writer = .console ⟨Spool.empty, directives.delimiter, Table.closing? true⟩ ∧
      other = desk.print (Table.openingText true directives)) ∨
    (writer = .size ⟨Spool.empty, directives.relationName⟩ ∧ other = desk) := by
  rw [openNamed_eq] at opens
  generalize WriterKind.parse name = parsed at opens
  rcases parsed with cause | _ | _ | _
  · cases opens
  · left
    change openFile _ _ = _ at opens
    rw [openFile_eq, Directives.fileName, Directives.require] at opens
    rcases named : directives.get? "filename" with _ | path
    · simp [named, Except.bind] at opens
    · rcases created : desk.files.create path with cause | ⟨file, files⟩
      · simp [named, created, Except.bind] at opens
      · simp only [named, created, Except.bind, Except.ok.injEq] at opens
        exact ⟨path, file, files, rfl, created, opens⟩
  · right; left
    change openConsole _ _ = _ at opens
    rw [openConsole_eq, Except.ok.injEq, Prod.mk.injEq] at opens
    exact ⟨opens.1.symm, opens.2.symm⟩
  · right; right
    change Except.ok _ = _ at opens
    rw [Except.ok.injEq, Prod.mk.injEq] at opens
    exact ⟨opens.1.symm, opens.2.symm⟩

/-- A writer is opened by a name, its own or that of the directives. -/
theorem openWriter_eq_ok {name : Option String} {directives : Directives}
    (opens : desk.openWriter name directives = .ok (writer, other)) :
    ∃ name, desk.openNamed name directives = .ok (writer, other) := by
  cases name with
  | some name => exact ⟨name, opens⟩
  | none =>
    change directives.writerName.bind _ = _ at opens
    cases named : directives.writerName with
    | error cause => simp [named, Except.bind] at opens
    | ok name =>
      rw [named] at opens
      exact ⟨name, opens⟩

/-! ## What a request does -/

/-- What a request does at a desk, case by case. -/
inductive Handled (desk : Desk ε) (id : String) : Request → Reply → Desk ε → Prop
  /-- A writer cannot be opened. -/
  | refused {name : Option String} {directives : Directives} {error : WriteError}
      (opens : desk.openWriter name directives = .error error) :
      Handled desk id (.open name directives) (.refused error) desk
  /-- A writer is opened, and the one that had the identifier is dropped. -/
  | opened {name : Option String} {directives : Directives} {writer : Writer ε} {opened : Desk ε}
      (opens : desk.openWriter name directives = .ok (writer, opened)) :
      Handled desk id (.open name directives) (.opened writer.kind)
        ((opened.drop id).keep id writer)
  | absent {request : Request} (absent : desk.writer? id = none)
      (noOpening : ∀ name directives, request ≠ .open name directives) :
      Handled desk id request .noWriter desk
  | tuple {writer : Writer ε} (values : List Value) (present : desk.writer? id = some writer) :
      Handled desk id (.tuple values) (desk.writeTuple values writer).1
        ((desk.writeTuple values writer).2.2.keep id (desk.writeTuple values writer).2.1)
  | size {writer : Writer ε} (count : Nat) (present : desk.writer? id = some writer) :
      Handled desk id (.size count) (desk.writeSize count writer).1
        ((desk.writeSize count writer).2.2.keep id (desk.writeSize count writer).2.1)
  | finish {writer : Writer ε} (present : desk.writer? id = some writer) :
      Handled desk id .finish .done ((desk.remove id).finish writer).2
  | drop {writer : Writer ε} (present : desk.writer? id = some writer) :
      Handled desk id .drop .dropped (desk.drop id)

theorem handled (desk : Desk ε) (id : String) (request : Request) :
    desk.Handled id request (desk.handle id request).1 (desk.handle id request).2 := by
  by_cases opening : ∃ name directives, request = .open name directives
  · obtain ⟨name, directives, rfl⟩ := opening
    rw [handle, openUnder]
    cases opens : desk.openWriter name directives with
    | error error => exact .refused opens
    | ok answer => exact .opened opens
  · simp only [not_exists] at opening
    cases present : desk.writer? id with
    | none =>
      rw [handle_none present opening]
      exact .absent present opening
    | some writer =>
      cases request with
      | «open» name directives => exact absurd rfl (opening name directives)
      | tuple values =>
        rw [handle_tuple present]
        exact .tuple values present
      | size count =>
        rw [handle_size present]
        exact .size count present
      | finish =>
        rw [handle_finish present]
        exact .finish present
      | drop =>
        rw [handle_drop present]
        exact .drop present

/-! ## Openings that are refused -/

theorem handle_open_unnamed {directives : Directives} (missing : directives.get? "IO" = none) :
    (desk.handle id (.open none directives)).1 = .refused (.missingDirective "IO") := by
  have refused : directives.writerName = .error (.missingDirective "IO") := by
    rw [Directives.writerName, Directives.require, missing]
  have opens : desk.openWriter none directives = .error (.missingDirective "IO") := by
    change directives.writerName.bind _ = _
    rw [refused]
    rfl
  rw [handle, openUnder, opens]

theorem handle_open_named {directives : Directives} {name : String}
    (named : directives.get? "IO" = some name) :
    desk.handle id (.open none directives) = desk.handle id (.open (some name) directives) := by
  have found : directives.writerName = .ok name := by
    rw [Directives.writerName, Directives.require, named]
  have opens : desk.openWriter none directives = desk.openWriter (some name) directives := by
    change directives.writerName.bind _ = _
    rw [found]
    rfl
  rw [handle, handle, openUnder, openUnder, opens]

theorem handle_open_unknown {name : String} (unknown : name ∉ WriterKind.all.map WriterKind.text)
    (directives : Directives) :
    (desk.handle id (.open (some name) directives)).1 = .refused (.unknownWriter name) := by
  have absent : WriterKind.all.find? (fun kind => kind.text = name) = none := by
    rw [List.find?_eq_none]
    intro kind listed called
    exact unknown (List.mem_map.mpr ⟨kind, listed, of_decide_eq_true called⟩)
  have opens : desk.openWriter (some name) directives = .error (.unknownWriter name) := by
    change (WriterKind.parse name).bind _ = _
    rw [WriterKind.parse, absent]
    rfl
  rw [handle, openUnder, opens]

theorem handle_open_nowhere {directives : Directives}
    (missing : directives.get? "filename" = none) :
    (desk.handle id (.open (some WriterKind.file.text) directives)).1 =
      .refused (.missingDirective "filename") := by
  have opens : desk.openWriter (some WriterKind.file.text) directives =
      .error (.missingDirective "filename") := by
    change desk.openFile directives = _
    rw [openFile_eq, Directives.fileName, Directives.require, missing]
    rfl
  rw [handle, openUnder, opens]

/-! ## Requests at desks that are alike -/

namespace Alike

theorem release (alike : desk.Alike other) (writer : Writer ε) :
    (desk.release writer).Alike (other.release writer) := by
  rw [alike.eq_withWriters, release_withWriters]
  exact alike.carried (writers_release desk writer)

theorem finish (alike : desk.Alike other) (writer : Writer ε) :
    (desk.finish writer).2.Alike (other.finish writer).2 := by
  rw [alike.eq_withWriters, finish_withWriters]
  exact alike.carried (writers_finish desk writer)

theorem drop (alike : desk.Alike other) (id : String) : (desk.drop id).Alike (other.drop id) := by
  rw [Desk.drop, Desk.drop, alike.writer?_eq]
  cases desk.writer? id with
  | none => exact alike
  | some writer => exact (alike.remove id).release writer

/-- At desks that are alike the same becomes of a request, and they stay alike. -/
theorem handle (alike : desk.Alike other) (id : String) (request : Request) :
    (other.handle id request).1 = (desk.handle id request).1 ∧
      (desk.handle id request).2.Alike (other.handle id request).2 := by
  -- The list of writers is looked at for the writer with the identifier, and carried on otherwise.
  have same := alike.eq_withWriters
  have found := alike.writer?_eq id
  by_cases opening : ∃ name directives, request = .open name directives
  · obtain ⟨name, directives, rfl⟩ := opening
    have opens := openWriter_withWriters desk other.writers name directives
    rw [← same] at opens
    rw [Desk.handle, Desk.handle, openUnder, openUnder, opens]
    cases opened : desk.openWriter name directives with
    | error error => exact ⟨rfl, alike⟩
    | ok answer => exact ⟨rfl, ((alike.carried (writers_openWriter opened)).drop id).keep id _⟩
  · simp only [not_exists] at opening
    cases present : desk.writer? id with
    | none =>
      rw [present] at found
      rw [handle_none present opening, handle_none found opening]
      exact ⟨rfl, alike⟩
    | some writer =>
      rw [present] at found
      cases request with
      | «open» name directives => exact absurd rfl (opening name directives)
      | tuple values =>
        have writes := writeTuple_withWriters desk other.writers values writer
        rw [← same] at writes
        rw [handle_tuple present, handle_tuple found, writes]
        exact ⟨rfl, (alike.carried (writers_writeTuple desk values writer)).keep id _⟩
      | size count =>
        have writes := writeSize_withWriters desk other.writers count writer
        rw [← same] at writes
        rw [handle_size present, handle_size found, writes]
        exact ⟨rfl, (alike.carried (writers_writeSize desk count writer)).keep id _⟩
      | finish =>
        rw [handle_finish present, handle_finish found]
        exact ⟨rfl, (alike.remove id).finish writer⟩
      | drop =>
        rw [handle_drop present, handle_drop found]
        exact ⟨rfl, alike.drop id⟩

end Alike

end Desk

end DatalogStrata
