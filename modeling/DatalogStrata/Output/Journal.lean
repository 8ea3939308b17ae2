import DatalogStrata.Output.Desk
import DatalogStrata.Output.Layout

/-!
# Sessions of writers

A session is a writer as told by what was asked of it: how it was opened, what it was given since
then, and whether it has come to its end. What a writer should leave in its file or on the console
can be told from its session alone, whatever other writers do.

## Main definitions

* `Exchange`, `Desk.transcript`, `Desk.after` — what is asked at a desk and what becomes of it
* `Session` — what was asked of one writer
* `Session.text`, `Session.printout` — what a writer leaves in its file and on the console
* `Journal` — the sessions at a desk, and what they print piece by piece
-/

namespace DatalogStrata

/-- A request to the writer with an identifier, and what became of it. -/
structure Exchange where
  id : String
  request : Request
  reply : Reply
deriving DecidableEq, Repr

namespace Desk

variable {ε : Type} [Compressor ε]

/-- What becomes of requests one after another. -/
def transcript (desk : Desk ε) : List (String × Request) → List Exchange
  | [] => []
  | (id, request) :: rest =>
    ⟨id, request, (desk.handle id request).1⟩ :: (desk.handle id request).2.transcript rest

/-- The desk after requests one after another. -/
def after (desk : Desk ε) : List (String × Request) → Desk ε
  | [] => desk
  | (id, request) :: rest => (desk.handle id request).2.after rest

end Desk

/-- What was asked of one writer. -/
structure Session where
  id : String
  kind : WriterKind
  directives : Directives
  /-- The tuples that it was given to write. -/
  rows : List (List Value)
  /-- The sizes that it was given to write. -/
  sizes : List Nat
  /-- Whether the writer has come to its end: it was finished, dropped, or replaced. -/
  ended : Bool
deriving DecidableEq, Repr

namespace Session

/-- The session of a writer that has just been opened. -/
def start (id : String) (kind : WriterKind) (directives : Directives) : Session :=
  ⟨id, kind, directives, [], [], false⟩

/-- Whether the writer is the one with an identifier now. -/
def bears (session : Session) (id : String) : Bool :=
  !session.ended && session.id = id

/-- The session after a request to its writer. One to open another writer takes its place. -/
def next (session : Session) : Request → Session
  | .tuple values =>
    if session.kind = .size then session else { session with rows := session.rows ++ [values] }
  | .size count =>
    if session.kind = .size then { session with sizes := session.sizes ++ [count] } else session
  | .finish | .drop | .open .. => { session with ended := true }

/-- What the writer prints when it is opened. -/
def opening (session : Session) : List String :=
  if session.kind = .console then [Table.openingText true session.directives] else []

/-- What the writer prints on a request. -/
def prints (session : Session) : Request → List String
  | .tuple values =>
    if session.kind = .console then [Table.rowText session.directives.delimiter values] else []
  | .size count =>
    if session.kind = .size then [SizeWriter.row session.directives.relationName count] else []
  | .finish | .drop | .open .. =>
    if session.kind = .console then [Table.closingText true] else []

/-- All that the writer prints, piece by piece: a frame around its rows, or a line for each size.
A writer of a file prints nothing. -/
def printout (session : Session) : List String :=
  match session.kind with
  | .file => []
  | .console =>
    Table.openingText true session.directives ::
      session.rows.map (Table.rowText session.directives.delimiter) ++
      if session.ended then [Table.closingText true] else []
  | .size => session.sizes.map (SizeWriter.row session.directives.relationName)

/-- The path of the file that the writer writes. -/
def path (session : Session) : String :=
  (session.directives.get? "filename").getD ""

/-- The place of the file that the writer writes. -/
def place (session : Session) (working : List String) : List String :=
  Path.place working session.path

/-- The table that the writer leaves in its file. -/
def text (session : Session) : String :=
  Table.text false session.directives session.rows

/-- The content of the file, once it is decoded if it is a compressed one. -/
def decoded (session : Session) (decode : List UInt8 → Option (List UInt8)) (bytes : List UInt8) :
    Option (List UInt8) :=
  if session.directives.compress then decode bytes else some bytes

end Session

/-- Texts for each of some items, each with the place of its item. -/
def piecesOf {α : Type} (texts : α → List String) (items : List α) : List (Nat × String) :=
  (items.mapIdx fun place item => (texts item).map fun text => (place, text)).flatten

/-- The sessions at a desk, in the order in which they began. -/
structure Journal where
  sessions : List Session
  /-- What is printed, piece by piece, each with the place of its session. -/
  pieces : List (Nat × String)
deriving DecidableEq, Repr

namespace Journal

/-- Before anything is asked. -/
def empty : Journal :=
  ⟨[], []⟩

/-- Pass a request on to the session of the writer with an identifier. -/
def give (journal : Journal) (id : String) (request : Request) : Journal where
  sessions := journal.sessions.map fun session =>
    if session.bears id then session.next request else session
  pieces := journal.pieces ++
    piecesOf (fun session => if session.bears id then session.prints request else [])
      journal.sessions

/-- Print the opening of a session that comes next. -/
def announce (journal : Journal) (session : Session) : Journal :=
  let printed := session.opening.map fun text => (journal.sessions.length, text)
  { journal with pieces := journal.pieces ++ printed }

/-- Begin a session. -/
def begin (journal : Journal) (session : Session) : Journal :=
  { journal with sessions := journal.sessions ++ [session] }

/-- Note what was asked and what became of it. A writer that is opened prints its opening before the
one that it replaces comes to its end. -/
def note (journal : Journal) (exchange : Exchange) : Journal :=
  match exchange.request, exchange.reply with
  | .open name directives, .opened kind =>
    let session := Session.start exchange.id kind directives
    ((journal.announce session).give exchange.id (.open name directives)).begin session
  | .open .., _ => journal
  | request, _ => journal.give exchange.id request

/-- The journal of what was asked and what became of it. -/
def ofTranscript (exchanges : List Exchange) : Journal :=
  exchanges.foldl note empty

/-- The session of the writer with an identifier, if there is one. -/
def current (journal : Journal) (id : String) : List Session :=
  journal.sessions.filter fun session => session.bears id

/-- The sessions of writers of files. -/
def fileSessions (journal : Journal) : List Session :=
  journal.sessions.filter fun session => session.kind = .file

/-- The places of the files that are written. -/
def places (journal : Journal) (working : List String) : List (List String) :=
  journal.fileSessions.map fun session => session.place working

end Journal

end DatalogStrata
