import DatalogStrata.CommandLine.Tool

/-!
# Reports on single programs

What the tool tells about one program depends on nothing but the program's path and what can be read
there. A run on the program alone and a batch tell the same on the way and put the same outcome into
words of their own.

## Main definitions

* `Report` — what is told about a program, and how that ends
* `Program.ofSource`, `Report.ofSource` — the program and the report for what can be read at a path
* `Report.ofFile` — the report for a path of a file tree
* `FileTree.HasStrata` — whether the program at a path can be loaded and stratified
* `Report.lastWord`, `Report.verdict` — the outcome as a single run and as a batch tell it
* `Report.entry`, `Report.batch` — what a batch tells about a program, and altogether
-/

namespace DatalogStrata

/-- The program that is loaded from what can be read. -/
def Program.ofSource : Except FileError String → Except LoadError Program
  | .error cause => .error (.unreadable cause)
  | .ok text => (Program.parse text).mapError .unusable

/-- A program with strata can be loaded from a path. -/
def FileTree.HasStrata (files : FileTree) (path : String) : Prop :=
  ∃ text program strata, files.readText path = .ok text ∧ Program.parse text = .ok program ∧
    program.precedence.stratify = .ok strata

/-- What is told about a program. -/
structure Report where
  path : String
  /-- The records before the outcome. -/
  told : List Record
  /-- The summary of a program with strata, or why there are none. -/
  outcome : Except ToolError String

namespace Report

/-- What is told about a program that was loaded. -/
def ofProgram (path : String) (program : Program) : Report :=
  let loaded := [program.validated, program.loaded path] ++ program.precedence.records
  match program.precedence.stratify with
  | .ok strata =>
    ⟨path, loaded ++ strata.records ++ [toolNote strata.precedence.text, strata.listing],
      .ok strata.summary⟩
  | .error cause => ⟨path, loaded ++ cause.records, .error (.rejected cause)⟩

/-- What is told about a program by what can be read at its path. -/
def ofSource (path : String) (source : Except FileError String) : Report :=
  match Program.ofSource source with
  | .error cause => ⟨path, [], .error (.notLoaded cause)⟩
  | .ok program => ofProgram path program

/-- The report on the program at a path of a file tree. -/
def ofFile (files : FileTree) (path : String) : Report :=
  ofSource path (files.readText path)

/-- Whether the program has strata. -/
def passed (report : Report) : Bool :=
  report.outcome.toOption.isSome

/-- The outcome as it is told when the program is the only one. -/
def lastWord [JsonWording] (report : Report) : Record :=
  match report.outcome with
  | .ok summary =>
    toolNote (Options.programName ⟨report.path, none, false⟩ ++ " stratified (" ++ summary ++ ")")
  | .error error => toolFailure error.message

/-- The outcome as it is told in a batch. -/
def verdict [JsonWording] (report : Report) : Record :=
  match report.outcome with
  | .ok summary => Batch.success report.path (some summary)
  | .error error => Batch.failure report.path error.message

/-- What a batch tells about the program at a place: its header, the same as a single run, and the
outcome. -/
def entry [JsonWording] (total place : Nat) (report : Report) : List Record :=
  [Batch.note ("[" ++ toString (place + 1) ++ "/" ++ toString total ++ "] " ++ report.path),
    Batch.note (rule 40 '-')] ++ report.told ++ [report.verdict]

/-- The paths of the programs without strata. -/
def failing (reports : List Report) : List String :=
  (reports.filter fun report => !report.passed).map path

/-- The last word of a batch: there are no programs without strata, or which ones they are. -/
def conclusion (reports : List Report) : Record :=
  if failing reports = [] then Batch.note "All example programs passed stratifier!"
  else ⟨.error, .batch, "stratifier failed on: " ++ commaSeparated (failing reports)⟩

/-- All that a batch tells: how many programs there are, an entry for each, and the totals. -/
def batch [JsonWording] (reports : List Report) : List Record :=
  let total := reports.length
  let successful := (reports.filter passed).length
  let failed := (failing reports).length
  [Batch.note ("Running stratifier on " ++ toString total ++ " example programs..."),
    Batch.note (rule 80 '=')] ++
  (reports.mapIdx fun place report => report.entry total place).flatten ++
  [Batch.note (rule 80 '='), Batch.note "SUMMARY:",
    Batch.note ("  Total programs: " ++ toString total),
    Batch.note ("  Successful: " ++ toString successful),
    Batch.note ("  Failed: " ++ toString failed), conclusion reports]

end Report

end DatalogStrata
