import DatalogStrata.Log.Record
import DatalogStrata.Text

/-!
# Reports on a batch of programs

A report opens with a title, has a header and an outcome for each program, and ends with a summary
that counts the outcomes and names the programs that failed.

## Main definitions

* `Batch` — the tally of a batch
* `Batch.opening`, `Batch.header`, `Batch.success`, `Batch.failure`, `Batch.summary` — its records
-/

namespace DatalogStrata

/-- The tally of a batch. -/
structure Batch where
  /-- The name of the tool that is run on every program. -/
  tool : String
  /-- How many programs there are. -/
  total : Nat
  /-- How many programs have an outcome. -/
  processed : Nat
  /-- The programs that failed, in order. -/
  failures : List String
deriving DecidableEq, Repr

namespace Batch

/-- Before the first program. -/
def start (tool : String) (total : Nat) : Batch :=
  ⟨tool, total, 0, []⟩

/-- A record of a report. -/
def note (text : String) : Record :=
  ⟨.info, .batch, text⟩

/-- The title of a report. -/
def opening (batch : Batch) : List Record :=
  [note ("Running " ++ batch.tool ++ " on " ++ toString batch.total ++ " example programs..."),
    note (rule 80 '=')]

/-- The header of the next program. -/
def header (batch : Batch) (file : String) : List Record :=
  [note ("[" ++ toString (batch.processed + 1) ++ "/" ++ toString batch.total ++ "] " ++ file),
    note (rule 40 '-')]

/-- What is told about a success, with a summary if there is one. -/
def success (file : String) : Option String → Record
  | some summary => note ("SUCCESS: " ++ file ++ " (" ++ summary ++ ")")
  | none => note ("SUCCESS: " ++ file)

/-- What is told about a failure. -/
def failure (file message : String) : Record :=
  ⟨.error, .batch, "FAILED: " ++ file ++ " - " ++ message⟩

/-- Count a success. -/
def succeed (batch : Batch) : Batch :=
  { batch with processed := batch.processed + 1 }

/-- Count a failure. -/
def fail (batch : Batch) (file : String) : Batch :=
  { batch with processed := batch.processed + 1, failures := batch.failures ++ [file] }

/-- How many programs failed. -/
def failed (batch : Batch) : Nat :=
  batch.failures.length

/-- Whether no program failed. -/
def passed (batch : Batch) : Bool :=
  batch.failures.isEmpty

/-- The last word of a report. -/
def verdict (batch : Batch) : Record :=
  if batch.passed then
    note ("All example programs passed " ++ batch.tool ++ "!")
  else
    ⟨.error, .batch, batch.tool ++ " failed on: " ++ commaSeparated batch.failures⟩

/-- The summary of a report. -/
def summary (batch : Batch) : List Record :=
  [note (rule 80 '='), note "SUMMARY:", note ("  Total programs: " ++ toString batch.total),
    note ("  Successful: " ++ toString (batch.processed - batch.failed)),
    note ("  Failed: " ++ toString batch.failed), batch.verdict]

end Batch

end DatalogStrata
