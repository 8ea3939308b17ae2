import DatalogStrata.CommandLine.Analysis
import DatalogStrata.CommandLine.Batch
import DatalogStrata.CommandLine.Delivery
import DatalogStrata.CommandLine.Examples
import DatalogStrata.CommandLine.Load
import DatalogStrata.CommandLine.Options
import DatalogStrata.Log.Filter

/-!
# The stratification tool

The tool loads a program, stratifies it and tells about its precedence graph and its strata. With
the word `all` it does so for every example program and reports on the batch.

## Main definitions

* `stratifyFile` — one program, with a diagram if one is asked for
* `stratifyExamples` — all example programs
* `runTool` — the tool on a command line
* `Machine.standardOutput` — what stands on the console in the end
-/

namespace DatalogStrata

/-- Why the tool has no strata for a program. -/
inductive ToolError where
  | notLoaded (cause : LoadError)
  | rejected (cause : Rejection)
deriving DecidableEq

/-- The message for a failure of the tool. -/
def ToolError.message [JsonWording] : ToolError → String
  | notLoaded cause => cause.message
  | rejected cause => cause.cycle.message

/-- How a run of the tool ends. -/
inductive ExitCode where
  | success
  | failure
  | misuse
  /-- The tool could not be set up. -/
  | notSetUp
deriving DecidableEq, Repr

/-- The number of an exit code. -/
def ExitCode.number : ExitCode → Nat
  | success => 0
  | failure => 1
  | misuse => 2
  | notSetUp => 101

/-- A record of the tool itself. -/
def toolNote (text : String) : Record :=
  ⟨.info, .tool, text⟩

/-- A failure told by the tool itself. -/
def toolFailure (text : String) : Record :=
  ⟨.error, .tool, text⟩

/-- The format of the diagram that is asked for. -/
def Options.format (options : Options) : DiagramFormat :=
  if options.html then .html else .dot

namespace Stratification

/-- The strata as they are told at the end. -/
def listing (stratification : Stratification) : Record :=
  toolNote ("Stratification (" ++ stratification.counts ++ "):" ++ stratification.text)

/-- A program and its strata, counted. -/
def summary (stratification : Stratification) : String :=
  toString stratification.precedence.program.declarations.length ++ " relations, " ++
    stratification.counts

end Stratification

variable {m : Type → Type} [Monad m] [Host m]

/-- Tell about the graph and the strata of a program, and deliver the diagram between the two. -/
def present (options : Options) (stratification : Stratification) : m Unit := do
  Host.log (toolNote stratification.precedence.text)
  match options.dot with
  | some target =>
    deliverAndTell target (stratification.precedence.diagram options.format options.program)
  | none => pure ()
  Host.log stratification.listing

/-- Load, stratify and present a program; the answer is its summary. -/
def stratifyFile (options : Options) : m (Except ToolError String) := do
  match ← Program.load options.program with
  | .error cause => return .error (.notLoaded cause)
  | .ok program =>
    match ← program.precedence.analyse with
    | .error cause => return .error (.rejected cause)
    | .ok stratification =>
      present options stratification
      return .ok stratification.summary

variable [JsonWording]

/-- Run the tool on one program. -/
def runSingle (options : Options) : m ExitCode := do
  match ← stratifyFile options with
  | .ok summary =>
    Host.log (toolNote (options.programName ++ " stratified (" ++ summary ++ ")"))
    return .success
  | .error error =>
    Host.log (toolFailure error.message)
    return .failure

/-- Run the tool on one program of a batch and count the outcome. -/
def runInBatch (batch : Batch) (path : String) : m Batch := do
  Host.logAll (batch.header path)
  match ← stratifyFile ⟨path, none, false⟩ with
  | .ok summary =>
    Host.log (Batch.success path (some summary))
    return batch.succeed
  | .error error =>
    Host.log (Batch.failure path error.message)
    return batch.fail path

/-- Run the tool on programs one after another. -/
def runBatch (batch : Batch) : List String → m Batch
  | [] => pure batch
  | path :: rest => do
    runBatch (← runInBatch batch path) rest

/-- Run the tool on all example programs. -/
def stratifyExamples : m ExitCode := do
  match ← exampleFiles exampleDirectory with
  | .error cause =>
    Host.log (toolFailure ("Error reading example directory '" ++ exampleDirectory ++ "': " ++
      cause.message))
    return .failure
  | .ok [] =>
    Host.log (toolFailure ("No .json files found in " ++ exampleDirectory ++ " directory"))
    return .failure
  | .ok paths =>
    let batch := Batch.start "stratifier" paths.length
    Host.logAll batch.opening
    -- A program that fails does not end the batch.
    let batch ← runBatch batch paths
    Host.logAll batch.summary
    return if batch.passed then .success else .failure

/-- Run the tool on accepted options. -/
def runOptions (options : Options) : m ExitCode :=
  if options.wantsAll then stratifyExamples else runSingle options

/-- Run the tool on the arguments of a command line. Misuse is left to the caller to explain. -/
def runTool (arguments : List String) : m ExitCode := do
  match Options.parse arguments with
  | .ok options => runOptions options
  | .error .version =>
    Host.emit (.text Options.versionText)
    return .success
  | .error .help =>
    Host.emit (.text Options.helpText)
    return .success
  | .error .usage => return .misuse

/-- What an event leaves on the console. -/
def Event.shown (filter : LogFilter) : Event → String
  | .record entry => if filter.allows entry then entry.consoleLine else ""
  | .text output => output

/-- What stands on the console in the end. -/
def Machine.standardOutput (machine : Machine) (filter : LogFilter) : String :=
  concat (machine.console.toList.map (Event.shown filter))

end DatalogStrata
