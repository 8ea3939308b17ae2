import DatalogStrata.CommandLine.Host
import DatalogStrata.Program.Decode

/-!
# Loading programs

A program is read from a file, checked and announced in the log.

## Main definitions

* `LoadError` — why a program cannot be loaded
* `Program.load` — the program in a file
-/

namespace DatalogStrata

/-- Why a program cannot be loaded. -/
inductive LoadError where
  | unreadable (cause : FileError)
  | unusable (cause : ParseError)
deriving DecidableEq

/-- The message for a load error. -/
def LoadError.message [JsonWording] : LoadError → String
  | unreadable cause => "IO error: " ++ cause.message
  | unusable cause => cause.message

namespace Program

/-- What is recorded about a program that passed all checks. -/
def validated (program : Program) : Record :=
  let count := toString program.declarations.length
  ⟨.debug, .program, "Program validated (" ++ count ++ " relations)"⟩

/-- What is recorded about a program loaded from a file. -/
def loaded (program : Program) (path : String) : Record :=
  let relations := toString program.declarations.length
  let clauses := toString program.clauses.length
  ⟨.info, .program,
    "Loaded program " ++ path ++ " (relations=" ++ relations ++ ", clauses=" ++ clauses ++ ")"⟩

variable {m : Type → Type} [Monad m] [Host m]

/-- The program in a file. -/
def load (path : String) : m (Except LoadError Program) := do
  match ← Host.readText path with
  | .error cause => return .error (.unreadable cause)
  | .ok text =>
    match Program.parse text with
    | .error cause => return .error (.unusable cause)
    | .ok program =>
      Host.logAll [program.validated, program.loaded path]
      return .ok program

end Program

end DatalogStrata
