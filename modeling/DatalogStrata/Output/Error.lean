import DatalogStrata.Files.Tree
import DatalogStrata.Output.Directives

/-!
# Kinds of writers and what they refuse

There are three kinds of writers, known by name. A writer refuses what does not fit its kind and
passes on what its sink refuses.

## Main definitions

* `WriterKind` — the kinds of writers
* `WriteError` — why something is not written
* `WriterKind.parse` — a kind by its name
* `Directives.writerName`, `Directives.fileName` — directives without which there is no writer
-/

namespace DatalogStrata

/-- The kinds of writers. -/
inductive WriterKind where
  /-- Tuples into a file. -/
  | file
  /-- Tuples to the console. -/
  | console
  /-- The number of tuples to the console. -/
  | size
deriving DecidableEq, Repr

/-- The name of a kind. -/
def WriterKind.text : WriterKind → String
  | file => "file"
  | console => "stdout"
  | size => "stdoutprintsize"

/-- Why something is not written. -/
inductive WriteError where
  /-- The sink takes no more. -/
  | sinkFull
  | file (cause : FileError)
  | unknownWriter (name : String)
  /-- A relation of which only the size is written was given a tuple. -/
  | sizeOnly (relation : String)
  /-- A writer of tuples was given a size. -/
  | tuplesOnly (kind : WriterKind)
  | missingDirective (key : String)
deriving DecidableEq, Repr

/-- The message for a write error. -/
def WriteError.message : WriteError → String
  | sinkFull => "Output error: sink full"
  | file cause => "Output error: " ++ cause.message
  | unknownWriter name =>
    "Output error: unknown writer '" ++ name ++ "' (expected file, stdout or stdoutprintsize)"
  | sizeOnly relation =>
    "Output error: relation '" ++ relation ++ "' is written as a size only, not as tuples"
  | tuplesOnly kind => "Output error: " ++ kind.text ++ " writer accepts tuples, not a size"
  | missingDirective key => "Output error: missing '" ++ key ++ "' directive"

namespace WriterKind

/-- All kinds. -/
def all : List WriterKind :=
  [file, console, size]

/-- The kind with a given name. -/
def parse (name : String) : Except WriteError WriterKind :=
  match all.find? fun kind => kind.text = name with
  | some kind => .ok kind
  | none => .error (.unknownWriter name)

end WriterKind

namespace Directives

/-- A directive that must be there. -/
def require (directives : Directives) (key : String) : Except WriteError String :=
  match directives.get? key with
  | some value => .ok value
  | none => .error (.missingDirective key)

/-- The name of the writer. -/
def writerName (directives : Directives) : Except WriteError String :=
  directives.require "IO"

/-- The path of the file to be written. -/
def fileName (directives : Directives) : Except WriteError String :=
  directives.require "filename"

end Directives

end DatalogStrata
