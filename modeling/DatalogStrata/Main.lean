import DatalogStrata.CommandLine.Tool

/-!
# The program

The tool on the machine itself: files and directories as the operating system keeps them, records
on standard output where the setting `STRATIFIER_LOG` allows them, and a hint on standard error
when the command line does not fit.

## Main definitions

* `Terminal` — what runs on the machine itself
* `main` — the tool on the arguments of the process
-/

namespace DatalogStrata

/-- What runs on the machine itself, and shows the records that a filter allows. -/
abbrev Terminal := ReaderT LogFilter IO

namespace Terminal

/-- The file error for a failure of the operating system; an unknown one keeps its wording. The
system's number for a failure comes as it is or negated. -/
def fileError (failure : IO.Error) : FileError :=
  match failure with
  | .noFileOrDirectory .. => .notFound
  | .inappropriateType _ number _ =>
    if number = 21 || number = -21 then .isDirectory else .notDirectory
  | .invalidArgument _ number _ =>
    if number = 36 || number = -36 then .nameTooLong else .other (toString failure)
  | _ => .other (toString failure)

/-- Run a request to the operating system and take its failure for an answer. -/
def request {α : Type} (action : IO α) : Terminal (Except FileError α) := do
  match ← action.toBaseIO with
  | .ok answer => return .ok answer
  | .error failure => return .error (fileError failure)

instance : Host Terminal where
  readText path := do
    return (← request (IO.FS.readBinFile path)).bind fun bytes =>
      match String.fromUTF8? bytes with
      | some text => .ok text
      | none => .error .notText
  writeText path text := request (IO.FS.writeFile path text)
  entries path := do
    let listing ← request (do ((← IO.currentDir) / path).readDir)
    return listing.map fun entries => entries.toList.map fun entry => entry.fileName
  emit event := do
    let output ← IO.getStdout
    output.putStr (event.shown (← read))
    output.flush

end Terminal

/-- The reader of JSON does not keep what it stumbled over. -/
local instance : JsonWording where
  fault _ := "no program in JSON"

/-- Run the tool under the filter that a setting asks for, if there is one. -/
def runTerminal (setting : Option String) (arguments : List String) : IO ExitCode :=
  match LogFilter.ofSetting setting with
  | some filter => (runTool arguments : Terminal ExitCode).run filter
  | none => return .notSetUp

end DatalogStrata

open DatalogStrata in
/-- Run the tool on the arguments of the process and end with its exit code. -/
def main (arguments : List String) : IO UInt32 := do
  let code ← runTerminal (← IO.getEnv "STRATIFIER_LOG") arguments
  if code = .misuse then
    (← IO.getStderr).putStr Options.usageText
  return code.number.toUInt32
