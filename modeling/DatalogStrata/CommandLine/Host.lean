import DatalogStrata.Files.Tree
import DatalogStrata.Log.Record

/-!
# The machine around the tool

What the tool asks of the machine that it runs on: to read and write files, to list a directory,
and to put something on the console. The tool is written for any such machine.

The simulated machine holds a file tree and everything that was put on the console, in order.

## Main definitions

* `Event` — something put on the console
* `Host` — the requests to a machine
* `Machine`, `Simulation` — the simulated machine
-/

namespace DatalogStrata

/-- Something put on the console: a record of the log, or text that belongs to the output. -/
inductive Event where
  | record (record : Record)
  | text (text : String)
deriving DecidableEq, Repr

/-- The requests to a machine. -/
class Host (m : Type → Type) where
  /-- The text of a file. -/
  readText : String → m (Except FileError String)
  /-- Give a file a text for its whole content. -/
  writeText : String → String → m (Except FileError Unit)
  /-- The names of the entries of a directory, in any order. -/
  entries : String → m (Except FileError (List String))
  /-- Put something on the console. -/
  emit : Event → m Unit

namespace Host

variable {m : Type → Type} [Monad m] [Host m]

/-- Put a record into the log. -/
def log (record : Record) : m Unit :=
  emit (.record record)

/-- Put records into the log, one after another. -/
def logAll : List Record → m Unit
  | [] => pure ()
  | record :: rest => do
    log record
    logAll rest

end Host

/-- A machine with a file tree and a console. -/
structure Machine where
  files : FileTree
  /-- What was put on the console, in order. -/
  console : Array Event
deriving DecidableEq

/-- What runs on a simulated machine. -/
abbrev Simulation := StateM Machine

instance : Host Simulation where
  readText path := fun machine => (machine.files.readText path, machine)
  writeText path text := fun machine =>
    match machine.files.writeText path text with
    | .ok files => (.ok (), { machine with files := files })
    | .error e => (.error e, machine)
  entries path := fun machine => (machine.files.entries path, machine)
  emit event := fun machine => ((), { machine with console := machine.console.push event })

namespace Machine

/-- A machine with given files and nothing on its console. -/
def withFiles (files : FileTree) : Machine :=
  ⟨files, #[]⟩

/-- The records of the log, in order. -/
def records (machine : Machine) : List Record :=
  machine.console.toList.filterMap fun event =>
    match event with
    | .record record => some record
    | .text _ => none

/-- The text on the console that is no record. -/
def printed (machine : Machine) : String :=
  concat (machine.console.toList.filterMap fun event =>
    match event with
    | .record _ => none
    | .text text => some text)

end Machine

end DatalogStrata
