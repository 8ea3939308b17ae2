import DatalogStrata.CommandLine.Report
import Mathlib.Data.List.Basic

/-!
# What a run tells

Most of what the tool does on the simulated machine only adds records to the log. Such a run is
known by its answer and by the records that it adds, and runs one after another add theirs in order.
A run that delivers a diagram is known by what it puts on the console and by the files that it
leaves.

## Main definitions

* `Machine.tell` — a machine with more records in its log
* `Simulation.Tells` — a run answers and adds records, and does nothing else
* `Simulation.Leaves` — a run answers, adds events and leaves files

## Main results

* `Simulation.Tells.bind`, `Simulation.Leaves.bind` — runs one after another
* `leaves_stratifyFile` — a run on a program with strata, by how the strata are presented
* `tells_stratifyFile` — what is told about one program, when no diagram is asked for
-/

namespace DatalogStrata

namespace Machine

/-- The machine with more records in its log. -/
def tell (machine : Machine) (records : List Record) : Machine :=
  { machine with console := machine.console ++ (records.map Event.record).toArray }

@[simp] theorem files_tell (machine : Machine) (records : List Record) :
    (machine.tell records).files = machine.files := rfl

@[simp] theorem tell_nil (machine : Machine) : machine.tell [] = machine := by
  simp [tell]

@[simp] theorem tell_tell (machine : Machine) (before after : List Record) :
    (machine.tell before).tell after = machine.tell (before ++ after) := by
  simp [tell, Array.append_assoc]

theorem tell_withFiles (files : FileTree) (records : List Record) :
    (withFiles files).tell records = ⟨files, (records.map Event.record).toArray⟩ := by
  simp [tell, withFiles]

end Machine

namespace Simulation

variable {α β : Type} {machine : Machine} {before after : List Record} {files : FileTree}
  {shown : List Event}

/-- A run answers and adds records to the log, and does nothing else. -/
def Tells (run : Simulation α) (machine : Machine) (answer : α) (records : List Record) : Prop :=
  run.run machine = (answer, machine.tell records)

theorem Tells.pure (answer : α) : Tells (pure answer) machine answer [] := by
  rw [Tells, Machine.tell_nil]
  rfl

theorem Tells.of_eq {run : Simulation α} {answer : α} {records others : List Record}
    (told : Tells run machine answer records) (same : records = others) :
    Tells run machine answer others :=
  same ▸ told

/-- Of two runs the second adds its records behind those of the first. -/
theorem Tells.bind {run : Simulation α} {next : α → Simulation β} {first : α} {second : β}
    (begun : Tells run machine first before)
    (continued : Tells (next first) (machine.tell before) second after) :
    Tells (run >>= next) machine second (before ++ after) := by
  rw [Tells, Machine.tell_tell] at continued
  rw [Tells, StateT.run_bind, begun]
  exact continued

/-- A run answers, puts events on the console and leaves some files. -/
def Leaves (run : Simulation α) (machine : Machine) (answer : α) (files : FileTree)
    (shown : List Event) : Prop :=
  run.run machine = (answer, ⟨files, machine.console ++ shown.toArray⟩)

theorem Tells.leaves {run : Simulation α} {answer : α}
    (told : Tells run machine answer before) :
    Leaves run machine answer machine.files (before.map .record) :=
  told

/-- Of two runs the second goes on from what the first leaves. -/
theorem Leaves.bind {run : Simulation α} {next : α → Simulation β} {first : α} {second : β}
    {middle : FileTree} {opening : List Event} (begun : Leaves run machine first middle opening)
    (continued : Leaves (next first) ⟨middle, machine.console ++ opening.toArray⟩ second files
      shown) :
    Leaves (run >>= next) machine second files (opening ++ shown) := by
  have joined : machine.console ++ opening.toArray ++ shown.toArray =
      machine.console ++ (opening ++ shown).toArray := by simp
  rw [Leaves, joined] at continued
  rw [Leaves, StateT.run_bind, begun]
  exact continued

theorem Leaves.of_eq {run : Simulation α} {answer : α} {others : List Event}
    (left : Leaves run machine answer files shown) (same : shown = others) :
    Leaves run machine answer files others :=
  same ▸ left

theorem tells_log (record : Record) :
    Tells (Host.log record : Simulation Unit) machine () [record] := by
  simp [Tells, Host.log, Host.emit, StateT.run, Machine.tell]

theorem tells_logAll (records : List Record) : ∀ {machine : Machine},
    Tells (Host.logAll records : Simulation Unit) machine () records := by
  induction records with
  | nil => exact Tells.pure ()
  | cons record records ih => exact (tells_log record).bind ih

theorem tells_readText (path : String) :
    Tells (Host.readText path : Simulation _) machine (machine.files.readText path) [] := by
  simp [Tells, Host.readText, StateT.run]

theorem tells_entries (path : String) :
    Tells (Host.entries path : Simulation _) machine (machine.files.entries path) [] := by
  simp [Tells, Host.entries, StateT.run]

end Simulation

open Simulation

variable (machine : Machine)

theorem tells_analyse (precedence : Precedence) :
    Tells precedence.analyse machine precedence.stratify
      (precedence.records ++ outcomeRecords precedence.stratify) := by
  rw [← List.append_nil (precedence.records ++ _)]
  exact (tells_logAll _).bind (Tells.pure _)

theorem tells_present (path : String) (strata : Stratification) :
    Tells (present ⟨path, none, false⟩ strata) machine ()
      [toolNote strata.precedence.text, strata.listing] :=
  (tells_log _).bind (tells_log _)

/-- A program that is loaded is announced. -/
theorem tells_load (path : String) : Tells (Program.load path) machine
    (Program.ofSource (machine.files.readText path))
    (match Program.ofSource (machine.files.readText path) with
      | .error _ => []
      | .ok program => [program.validated, program.loaded path]) := by
  -- Reading tells nothing, so the machine is still the same afterwards.
  refine (tells_readText path).bind ?_
  rw [Machine.tell_nil]
  cases machine.files.readText path with
  | error cause => exact Tells.pure _
  | ok text =>
    rw [Program.ofSource]
    dsimp only
    cases Program.parse text with
    | error cause => exact Tells.pure _
    | ok program => exact (tells_logAll _).bind (Tells.pure _)

/-! ## A run on one program -/

/-- A program with strata is one that can be loaded and stratified. -/
theorem FileTree.hasStrata_iff {files : FileTree} {path : String} : files.HasStrata path ↔
    ∃ program strata, Program.ofSource (files.readText path) = .ok program ∧
      program.precedence.stratify = .ok strata := by
  rw [HasStrata]
  cases files.readText path with
  | error cause => simp [Program.ofSource]
  | ok text =>
    rw [Program.ofSource]
    cases parsed : Program.parse text <;> simp [parsed, Except.mapError]

/-- What is told about a program before its strata are presented. -/
def Program.introduction (program : Program) (path : String) (strata : Stratification) :
    List Record :=
  [program.validated, program.loaded path] ++ (program.precedence.records ++ strata.records)

/-- The report on a program with strata. -/
theorem Report.ofFile_eq {files : FileTree} {path : String} {program : Program}
    {strata : Stratification} (loaded : Program.ofSource (files.readText path) = .ok program)
    (stratified : program.precedence.stratify = .ok strata) :
    Report.ofFile files path = ⟨path, program.introduction path strata ++
      [toolNote strata.precedence.text, strata.listing], .ok strata.summary⟩ := by
  simp [Report.ofFile, Report.ofSource, loaded, Report.ofProgram, stratified, Program.introduction]

/-- A run on a program with strata is told by how the strata are presented. -/
theorem leaves_stratifyFile (options : Options) {program : Program} {strata : Stratification}
    (loaded : Program.ofSource (machine.files.readText options.program) = .ok program)
    (stratified : program.precedence.stratify = .ok strata) {files : FileTree} {shown : List Event}
    (presents : Leaves (present options strata)
      (machine.tell (program.introduction options.program strata)) () files shown) :
    Leaves (stratifyFile options) machine (.ok strata.summary) files
      ((program.introduction options.program strata).map .record ++ shown) := by
  have loads := tells_load machine options.program
  rw [loaded] at loads
  have analyses := tells_analyse (machine.tell [program.validated, program.loaded options.program])
    program.precedence
  rw [stratified] at analyses
  -- Presenting goes on from the machine on which the program was loaded and analysed.
  rw [Program.introduction, ← Machine.tell_tell] at presents
  refine Leaves.of_eq (loads.leaves.bind (analyses.leaves.bind
    (presents.bind (Tells.pure _).leaves))) ?_
  simp [Program.introduction, outcomeRecords]

/-- Without strata nothing is presented, so it does not matter which diagram is asked for. -/
theorem tells_stratifyFile_of_not_hasStrata (options : Options)
    (fails : ¬ machine.files.HasStrata options.program) :
    Tells (stratifyFile options) machine
      (Report.ofFile machine.files options.program).outcome
      (Report.ofFile machine.files options.program).told := by
  -- Either the program cannot be loaded, and nothing is told, or it is rejected.
  rw [FileTree.hasStrata_iff] at fails
  have loads := tells_load machine options.program
  rw [Report.ofFile, Report.ofSource]
  cases loaded : Program.ofSource (machine.files.readText options.program) with
  | error cause =>
    rw [loaded] at loads
    exact loads.bind (Tells.pure _)
  | ok program =>
    rw [loaded] at loads
    have analyses := tells_analyse
      (machine.tell [program.validated, program.loaded options.program]) program.precedence
    cases stratified : program.precedence.stratify with
    | error cause =>
      rw [stratified] at analyses
      simp only [Report.ofProgram, stratified]
      refine Tells.of_eq (loads.bind (analyses.bind (Tells.pure _))) ?_
      simp [outcomeRecords]
    | ok strata => exact absurd ⟨program, strata, loaded, stratified⟩ fails

/-- Without a diagram, what is told about a program is told by what can be read at its path. -/
theorem tells_stratifyFile (path : String) :
    Tells (stratifyFile ⟨path, none, false⟩) machine
      (Report.ofFile machine.files path).outcome (Report.ofFile machine.files path).told := by
  by_cases hasStrata : machine.files.HasStrata path
  · obtain ⟨program, strata, loaded, stratified⟩ := FileTree.hasStrata_iff.mp hasStrata
    rw [Report.ofFile_eq loaded stratified]
    have runs := leaves_stratifyFile machine ⟨path, none, false⟩ loaded stratified
      (tells_present _ path strata).leaves
    rwa [← List.map_append] at runs
  · exact tells_stratifyFile_of_not_hasStrata machine ⟨path, none, false⟩ hasStrata

end DatalogStrata
