import DatalogStrata.Output.Compressor
import DatalogStrata.Output.Table

/-!
# Several writers at once

Writers are opened by name and directives and are known by an identifier of their own. What a
writer of the console writes is printed at once. A writer of a file gathers what it writes in
blocks and goes on in the file where its last block ended, whatever others have done to the file.
What is written to a compressed file goes through an encoder first, and the encoder comes to its end
with the writer.

A writer opened under an identifier in use takes the place of the one that had it, which is then
dropped; if it cannot be opened, the other one stays.

## Main definitions

* `Writer` — an open writer and where its text goes
* `Desk` — files, console and open writers
* `Request`, `Reply`, `Desk.handle` — a request to a writer and what becomes of it
* `Desk.dropAll` — drop the writers left open
-/

namespace DatalogStrata

/-- An open writer. -/
inductive Writer (ε : Type) where
  /-- Tuples for a file, known by its place in the tree, from a position on. -/
  | file (path : List String) (position : Nat) (table : TableWriter BlockBuffer)
  /-- Tuples for a compressed file. -/
  | archive (path : List String) (position : Nat) (table : TableWriter (PackedBuffer ε))
  | console (table : TableWriter Spool)
  | size (sizes : SizeWriter Spool)
deriving DecidableEq, Repr

/-- The kind of a writer. -/
def Writer.kind {ε : Type} : Writer ε → WriterKind
  | file .. => .file
  | archive .. => .file
  | console _ => .console
  | size _ => .size

/-- A request to a writer. -/
inductive Request where
  /-- Open a writer by a name, or by the name that the directives give. -/
  | open (name : Option String) (directives : Directives)
  | tuple (values : List Value)
  | size (count : Nat)
  | finish
  | drop
deriving DecidableEq, Repr

/-- What becomes of a request. -/
inductive Reply where
  | opened (kind : WriterKind)
  | done
  | dropped
  /-- There is no writer with the identifier. -/
  | noWriter
  | refused (error : WriteError)
deriving DecidableEq, Repr

/-- Whether something was written. -/
def Reply.ofResult : Except WriteError Unit → Reply
  | .ok () => .done
  | .error error => .refused error

/-- Files, console and open writers. -/
structure Desk (ε : Type) where
  files : FileTree
  /-- What was printed on the console. -/
  printed : String
  /-- The open writers by their identifiers. -/
  writers : List (String × Writer ε)
deriving DecidableEq, Repr

namespace Desk

variable {ε : Type}

/-- A desk without writers. -/
def start (files : FileTree) : Desk ε :=
  ⟨files, "", []⟩

/-- The open writer with an identifier. -/
def writer? (desk : Desk ε) (id : String) : Option (Writer ε) :=
  (desk.writers.find? fun entry => entry.1 = id).map Prod.snd

/-- Forget a writer. -/
def remove (desk : Desk ε) (id : String) : Desk ε :=
  { desk with writers := desk.writers.filter fun entry => entry.1 ≠ id }

/-- Remember a writer, in the place of the one that had its identifier. -/
def keep (desk : Desk ε) (id : String) (writer : Writer ε) : Desk ε :=
  { desk with writers := (id, writer) :: (desk.remove id).writers }

/-- Print a text. -/
def print (desk : Desk ε) (text : String) : Desk ε :=
  { desk with printed := desk.printed ++ text }

/-- A table of which everything held has been fetched. -/
def emptied (table : TableWriter Spool) : TableWriter Spool :=
  { table with sink := Spool.empty }

/-- Write bytes into a file. -/
def store (desk : Desk ε) (path : List String) (position : Nat) (bytes : List UInt8) : Desk ε :=
  { desk with files := desk.files.writeAt path position bytes }

/-- Write what a table has sent on its way into its file, and go on behind it. -/
def storeSent (desk : Desk ε) (path : List String) (position : Nat)
    (table : TableWriter BlockBuffer) : Writer ε × Desk ε :=
  let sent := table.sink.sent
  (.file path (position + sent.length) { table with sink := table.sink.fetched },
    desk.store path position sent)

/-- Write what an encoder has sent on its way into the file, and go on behind it. -/
def storePacked (desk : Desk ε) (path : List String) (position : Nat)
    (table : TableWriter (PackedBuffer ε)) : Writer ε × Desk ε :=
  let ⟨encoder, buffer⟩ := table.sink
  (.archive path (position + buffer.sent.length) { table with sink := ⟨encoder, buffer.fetched⟩ },
    desk.store path position buffer.sent)

/-- Print what a table holds. -/
def printHeld (desk : Desk ε) (table : TableWriter Spool) : Writer ε × Desk ε :=
  (.console (emptied table), desk.print table.sink.held)

/-- Print what a writer of sizes holds. -/
def printSizes (desk : Desk ε) (sizes : SizeWriter Spool) : Writer ε × Desk ε :=
  (.size { sizes with sink := Spool.empty }, desk.print sizes.sink.held)

variable [Compressor ε]

/-- Drop a writer. -/
def release (desk : Desk ε) : Writer ε → Desk ε
  | .file path position table => desk.store path position table.abandon.rest
  | .archive path position table => desk.store path position table.abandon.drop.rest
  | .console table => desk.print table.abandon.held
  | .size _ => desk

/-- Drop the writer with an identifier, if there is one. -/
def drop (desk : Desk ε) (id : String) : Desk ε :=
  match desk.writer? id with
  | some writer => (desk.remove id).release writer
  | none => desk

/-- Open a writer for a file. -/
def openFile (desk : Desk ε) (directives : Directives) :
    Except WriteError (Writer ε × Desk ε) := do
  let path ← directives.fileName
  -- The file is emptied at once, before anything that is written reaches it.
  match desk.files.create path with
  | .error cause => .error (.file cause)
  | .ok (file, files) =>
    let desk := { desk with files := files }
    if directives.compress then
      let (result, table) := TableWriter.openPlain directives PackedBuffer.empty
      result
      return desk.storePacked file 0 table
    else
      let (result, table) := TableWriter.openPlain directives BlockBuffer.empty
      result
      return desk.storeSent file 0 table

/-- Open a writer for tuples on the console. -/
def openConsole (desk : Desk ε) (directives : Directives) :
    Except WriteError (Writer ε × Desk ε) := do
  let (result, table) := TableWriter.openFramed directives Spool.empty
  result
  return desk.printHeld table

/-- Open a writer by its name. -/
def openNamed (desk : Desk ε) (name : String) (directives : Directives) :
    Except WriteError (Writer ε × Desk ε) := do
  match ← WriterKind.parse name with
  | .file => desk.openFile directives
  | .console => desk.openConsole directives
  | .size => return (.size ⟨Spool.empty, directives.relationName⟩, desk)

/-- Open a writer by a name, or by the name that the directives give. -/
def openWriter (desk : Desk ε) (name : Option String) (directives : Directives) :
    Except WriteError (Writer ε × Desk ε) := do
  match name with
  | some name => desk.openNamed name directives
  | none => desk.openNamed (← directives.writerName) directives

/-- Open a writer under an identifier. -/
def openUnder (desk : Desk ε) (id : String) (name : Option String) (directives : Directives) :
    Reply × Desk ε :=
  match desk.openWriter name directives with
  -- The writer that had the identifier is dropped once the new one has its place.
  | .ok (writer, opened) => (.opened writer.kind, (opened.drop id).keep id writer)
  | .error error => (.refused error, desk)

/-- Give a tuple to a writer. -/
def writeTuple (desk : Desk ε) (values : List Value) : Writer ε → Reply × Writer ε × Desk ε
  | .file path position table =>
    let (result, table) := table.writeRow values
    (.ofResult result, desk.storeSent path position table)
  | .archive path position table =>
    let (result, table) := table.writeRow values
    (.ofResult result, desk.storePacked path position table)
  | .console table =>
    let (result, table) := table.writeRow values
    (.ofResult result, desk.printHeld table)
  | .size sizes =>
    let (result, sizes) := sizes.writeRow values
    (.ofResult result, desk.printSizes sizes)

/-- Give a size to a writer. -/
def writeSize (desk : Desk ε) (count : Nat) : Writer ε → Reply × Writer ε × Desk ε
  | .size sizes =>
    let (result, sizes) := sizes.writeSize count
    (.ofResult result, desk.printSizes sizes)
  | writer => (.refused (.tuplesOnly writer.kind), writer, desk)

/-- Finish a writer; what is left of it is dropped. -/
def finish (desk : Desk ε) : Writer ε → Reply × Desk ε
  | .file path position table =>
    let (result, table) := table.finish
    (.ofResult result, desk.release (.file path position table))
  | .archive path position table =>
    match table.finish with
    -- The encoder is asked to finish only if the table has been closed.
    | (.ok (), table) => (.done, desk.store path position table.sink.finish.rest)
    | (.error error, table) => (.refused error, desk.release (.archive path position table))
  | .console table =>
    let (result, table) := table.finish
    (.ofResult result, desk.release (.console table))
  | .size _ => (.done, desk)

/-- Handle a request to the writer with an identifier. -/
def handle (desk : Desk ε) (id : String) (request : Request) : Reply × Desk ε :=
  match request, desk.writer? id with
  | .open name directives, _ => desk.openUnder id name directives
  | _, none => (.noWriter, desk)
  | .tuple values, some writer =>
    let (reply, writer, desk) := desk.writeTuple values writer
    (reply, desk.keep id writer)
  | .size count, some writer =>
    let (reply, writer, desk) := desk.writeSize count writer
    (reply, desk.keep id writer)
  | .finish, some writer => (desk.remove id).finish writer
  | .drop, some _ => (.dropped, desk.drop id)

/-- Drop the writers left open, in the order of their identifiers. -/
def dropAll (desk : Desk ε) : Desk ε :=
  let ids := (desk.writers.map Prod.fst).mergeSort fun a b => decide (a ≤ b)
  ids.foldl drop desk

end Desk

end DatalogStrata
