import DatalogStrata.CommandLine.Rendering
import DatalogStrata.Proofs.CommandLine.Batch
import DatalogStrata.Proofs.Stratum.Negation
import DatalogStrata.Proofs.Text

/-!
# Diagrams change nothing else

A diagram is delivered between the listing of the precedence graph and the listing of the strata,
and nothing that follows looks at how its delivery ended. So two runs on one program that ask for
different diagrams, or for none, end in the same way and tell the same, but for the diagram itself
and the one record about it.

## Main definitions

* `Program.opening`, `Stratification.closing` — the two parts of a log between which a diagram is
  delivered

## Main results

* `leaves_present` — what is left of a presentation, whatever diagram is asked for
* `renders_runSingle`, `runSingle_of_not_hasStrata` — a run on a program with strata, and on one
  without
* `rendering_noninterference` — two runs on one program
-/

namespace DatalogStrata

open Simulation

variable (machine : Machine)

/-! ## Deliveries -/

theorem leaves_emit (event : Event) :
    Leaves (Host.emit event : Simulation Unit) machine () machine.files [event] := by
  simp [Leaves, Host.emit, StateT.run]

theorem leaves_writeText (path text : String) :
    Leaves (Host.writeText path text : Simulation _) machine
      ((machine.files.writeText path text).map fun _ => ())
      ((machine.files.writeText path text).toOption.getD machine.files) [] := by
  cases written : machine.files.writeText path text <;>
    simp [Leaves, Host.writeText, StateT.run, written, Except.map, Except.toOption]

/-- Of a delivery its answer is left, the files after it, and the text on the console where the
target is a dash. -/
theorem leaves_deliver (target text : String) :
    Leaves (deliver target text) machine (machine.files.delivery target text).1
      (machine.files.delivery target text).2 (if target = "-" then [.text text] else []) := by
  rw [deliver, FileTree.delivery]
  -- A dash stands for the console, and any other target is a path.
  split
  · exact (leaves_emit machine _).bind (Tells.pure _).leaves
  · have writes := leaves_writeText machine target text
    cases written : machine.files.writeText target text with
    | ok files =>
      rw [written] at writes
      exact writes.bind (Tells.pure _).leaves
    | error cause =>
      rw [written] at writes
      exact writes.bind (Tells.pure _).leaves

/-- What is left of a delivery, with the record about its end. -/
theorem leaves_deliverAndTell (target text : String) :
    Leaves (deliverAndTell target text) machine () (machine.files.delivery target text).2
      ((if target = "-" then [.text text] else []) ++
        [.record (deliveryRecord target (machine.files.delivery target text).1)]) :=
  (leaves_deliver machine target text).bind (tells_log _).leaves

/-- Between the listings of the graph and of the strata stands what is left of the diagram. -/
theorem leaves_present (options : Options) (strata : Stratification) :
    Leaves (present options strata) machine ()
      (options.rendering strata.precedence machine.files).files
      (.record (toolNote strata.precedence.text) ::
        (options.rendering strata.precedence machine.files).events ++
          [.record strata.listing]) := by
  rw [present, Options.rendering]
  cases options.dot with
  | none =>
    -- Nothing is done between the two listings.
    exact (tells_log _).leaves.bind (tells_log _).leaves
  | some target =>
    refine Leaves.of_eq ((tells_log _).leaves.bind
      ((leaves_deliverAndTell _ _ _).bind (tells_log _).leaves)) ?_
    by_cases target = "-" <;> simp [Rendering.events, *]

theorem atLeast_deliveryRecord (target : String) (outcome : Except DeliveryError Unit) :
    (deliveryRecord target outcome).atLeast .info := by
  cases outcome <;> rfl

/-- What a console shows of a diagram is one record at most, and the diagram. -/
theorem Options.Renders.intro {options : Options} {precedence : Precedence} {files : FileTree}
    {before after : List Record} {machine : Machine}
    (files_eq : machine.files = (options.rendering precedence files).files)
    (console_eq : machine.console.toList = before.map .record ++
      (options.rendering precedence files).events ++ after.map .record) :
    options.Renders precedence files before after machine where
  files_eq := files_eq
  console_eq := console_eq
  records_eq := by simp [Machine.records, console_eq, Rendering.events]
  isSome_note := by cases asked : options.dot <;> simp [rendering, asked]
  atLeast_note := by
    cases asked : options.dot <;> simp [rendering, asked, atLeast_deliveryRecord]
  printed_eq := by
    cases asked : options.dot with
    | none => simp [Machine.printed, console_eq, Rendering.events, rendering, asked]
    | some target =>
      by_cases target = "-" <;>
        simp [Machine.printed, Rendering.events, rendering, *]

/-! ## Runs on one program -/

section Runs

variable [JsonWording]

/-- What is told about a program with strata up to the listing of its graph. -/
def Program.opening (program : Program) (path : String) (strata : Stratification) : List Record :=
  program.introduction path strata ++ [toolNote strata.precedence.text]

/-- What is told about a program with strata from their listing on. -/
def Stratification.closing (strata : Stratification) (name : String) : List Record :=
  [strata.listing, toolNote (name ++ " stratified (" ++ strata.summary ++ ")")]

/-- A run on a program with strata succeeds, whatever has become of the diagram. -/
theorem leaves_runSingle (options : Options) {program : Program} {strata : Stratification}
    (loaded : Program.ofSource (machine.files.readText options.program) = .ok program)
    (stratified : program.precedence.stratify = .ok strata) :
    Leaves (runSingle options) machine .success
      (options.rendering strata.precedence machine.files).files
      ((program.opening options.program strata).map .record ++
        (options.rendering strata.precedence machine.files).events ++
        (strata.closing options.programName).map .record) := by
  have runs := leaves_stratifyFile machine options loaded stratified
    (leaves_present (machine.tell (program.introduction options.program strata)) options strata)
  refine Leaves.of_eq (runs.bind ((tells_log _).leaves.bind (Tells.pure _).leaves)) ?_
  simp [Program.opening, Stratification.closing]

/-- A run on a program without strata fails before any diagram is made. -/
theorem tells_runSingle_of_not_hasStrata (options : Options)
    (fails : ¬ machine.files.HasStrata options.program) :
    Tells (runSingle options) machine .failure
      ((Report.ofFile machine.files options.program).told ++
        [(Report.ofFile machine.files options.program).lastWord]) := by
  have runs := tells_stratifyFile_of_not_hasStrata machine options fails
  rw [← Report.passed_ofFile_iff, Report.passed] at fails
  rw [Report.lastWord]
  cases ended : (Report.ofFile machine.files options.program).outcome with
  | ok summary => simp [ended, Except.toOption] at fails
  | error error =>
    rw [ended] at runs
    exact runs.bind ((tells_log _).bind (Tells.pure _))

/-- On an empty console a run on a program with strata shows the log, and in it the diagram. -/
theorem renders_runSingle {files : FileTree} (options : Options) {program : Program}
    {strata : Stratification}
    (loaded : Program.ofSource (files.readText options.program) = .ok program)
    (stratified : program.precedence.stratify = .ok strata) :
    let run := (runSingle options : Simulation ExitCode).run (.withFiles files)
    run.1 = .success ∧ options.Renders strata.precedence files
      (program.opening options.program strata) (strata.closing options.programName) run.2 := by
  intro run
  have left : run = (.success, _) := leaves_runSingle (.withFiles files) options loaded stratified
  rw [left]
  exact ⟨rfl, .intro rfl (by simp [Machine.withFiles])⟩

/-- On an empty console a run on a program without strata shows its report, which depends on nothing
but what can be read at the path of the program. -/
theorem runSingle_of_not_hasStrata {files : FileTree} (options : Options)
    (fails : ¬ files.HasStrata options.program) :
    let report := Report.ofSource options.program (files.readText options.program)
    (runSingle options : Simulation ExitCode).run (.withFiles files) =
      (.failure, ⟨files, ((report.told ++ [report.lastWord]).map Event.record).toArray⟩) := by
  intro report
  have told := tells_runSingle_of_not_hasStrata (.withFiles files) options fails
  rw [Tells, Machine.tell_withFiles] at told
  exact told

/-- Two runs on one program end in the same way and tell the same, whatever diagrams they are asked
for and wherever these go. They succeed if the program can be loaded and stratified. If so, the logs
differ at most in one record, between the listings of the graph and of the strata, which is there if
a diagram is asked for; if not, they do not differ at all. -/
theorem rendering_noninterference {files files' : FileTree} {arguments arguments' : List String}
    {options options' : Options}
    (accepted : Options.parse arguments = .ok options)
    (accepted' : Options.parse arguments' = .ok options')
    (single : options.wantsAll = false) (sameProgram : options'.program = options.program)
    (sameText : files'.readText options.program = files.readText options.program) :
    let run := (runTool arguments : Simulation ExitCode).run (.withFiles files)
    let run' := (runTool arguments' : Simulation ExitCode).run (.withFiles files')
    run.1 = run'.1 ∧ (run.1 = .success ↔ files.HasStrata options.program) ∧
      (run.1 = .success ∨ run.1 = .failure) ∧
      (¬ files.HasStrata options.program → ∃ told : List Record,
        run.2 = ⟨files, (told.map Event.record).toArray⟩ ∧
        run'.2 = ⟨files', (told.map Event.record).toArray⟩) ∧
      ∀ program strata, Program.ofSource (files.readText options.program) = .ok program →
        program.precedence.stratify = .ok strata →
        ∃ before after : List Record,
          before.getLast? = some (toolNote strata.precedence.text) ∧
          after.head? = some strata.listing ∧
          options.Renders strata.precedence files before after run.2 ∧
          options'.Renders strata.precedence files' before after run'.2 := by
  -- All but the diagram depends on the options through the path of the program.
  have single' : options'.wantsAll = false := by rwa [Options.wantsAll, sameProgram]
  have sameName : options'.programName = options.programName := by
    rw [Options.programName, sameProgram, Options.programName]
  rw [runTool_single accepted single, runTool_single accepted' single']
  intro run run'
  by_cases hasStrata : files.HasStrata options.program
  · obtain ⟨program, strata, loaded, stratified⟩ := FileTree.hasStrata_iff.mp hasStrata
    have loaded' : Program.ofSource (files'.readText options'.program) = .ok program := by
      rw [sameProgram, sameText, loaded]
    obtain ⟨success, rendered⟩ := renders_runSingle options loaded stratified
    obtain ⟨success', rendered'⟩ := renders_runSingle options' loaded' stratified
    rw [sameProgram, sameName] at rendered'
    refine ⟨success.trans success'.symm, iff_of_true success hasStrata, .inl success,
      fun fails => absurd hasStrata fails, ?_⟩
    -- There is one program in the file, and it has one stratification.
    intro other others loadedOther stratifiedOther
    obtain rfl : program = other := Except.ok.inj (loaded.symm.trans loadedOther)
    obtain rfl : strata = others := Except.ok.inj (stratified.symm.trans stratifiedOther)
    exact ⟨_, _, List.getLast?_concat, rfl, rendered, rendered'⟩
  · have hasStrata' : ¬ files'.HasStrata options'.program := by
      rwa [FileTree.hasStrata_iff, sameProgram, sameText, ← FileTree.hasStrata_iff]
    have failure := runSingle_of_not_hasStrata options hasStrata
    have failure' := runSingle_of_not_hasStrata options' hasStrata'
    rw [sameProgram, sameText] at failure'
    rw [show run = _ from failure, show run' = _ from failure']
    refine ⟨rfl, by simp [hasStrata], .inr rfl, fun _ => ⟨_, rfl, rfl⟩, ?_⟩
    intro program strata loaded stratified
    exact absurd (FileTree.hasStrata_iff.mpr ⟨program, strata, loaded, stratified⟩) hasStrata

end Runs

namespace UnwritableTarget

/-- A program with one relation, and a directory where the diagram should go, both away from the
working directory. -/
def files : FileTree where
  nodes :=
    [(["home"], .directory), (["data"], .directory), (["data", "out"], .directory),
      (["data", "p.json"],
        .file (bytesOf "\x7b\"relations\":[\x7b\"name\":\"flag\"\x7d]\x7d"))]
  working := ["home"]

/-- The program in the file. -/
def program : Program :=
  ⟨[⟨⟨["flag"]⟩, []⟩], []⟩

theorem stratifies : ∃ strata, program.precedence.stratify = .ok strata := by
  have edgeless : program.precedence.graph.edges = [] := rfl
  refine ⟨_, (Precedence.eq_ok_iff (Precedence.wellFormed_build _ _)).mpr ⟨?_, rfl⟩⟩
  rintro ⟨u, v, edge, -⟩
  exact absurd (edgeless ▸ edge) List.not_mem_nil

/-- The program is no malformed text, so nothing of the wording shows. -/
local instance : JsonWording where
  fault _ := ""

/-- The run ends well without the diagram, and one record tells that it did not arrive. -/
theorem succeeds_with_a_warning :
    let run := (runTool ["/data/p.json"] : Simulation ExitCode).run (.withFiles files)
    let run' := (runTool ["--dot", "/data/out", "--html", "/data/p.json"] :
      Simulation ExitCode).run (.withFiles files)
    run.1 = .success ∧ run'.1 = .success ∧ ∃ before after : List Record,
      run.2.records = before ++ after ∧
      run'.2.records = before ++
        [⟨.warn, .diagram,
          "Render error: failed to write '/data/out': Is a directory (os error 21)"⟩] ++ after := by
  intro run run'
  have accepted : Options.parse ["/data/p.json"] = .ok ⟨"/data/p.json", none, false⟩ := by decide
  have accepted' : Options.parse ["--dot", "/data/out", "--html", "/data/p.json"] =
      .ok ⟨"/data/p.json", some "/data/out", true⟩ := by decide
  have loaded : Program.ofSource (files.readText "/data/p.json") = .ok program := by
    decide +kernel
  obtain ⟨strata, stratified⟩ := stratifies
  obtain ⟨same, success_iff, -, -, tells⟩ := rendering_noninterference accepted accepted'
    (by decide) rfl (rfl : files.readText "/data/p.json" = files.readText "/data/p.json")
  have success : run.1 = .success :=
    success_iff.mpr (FileTree.hasStrata_iff.mpr ⟨program, strata, loaded, stratified⟩)
  obtain ⟨before, after, -, -, plain, drawn⟩ := tells program strata loaded stratified
  refine ⟨success, same.symm.trans success, before, after, ?_, drawn.records_eq⟩
  rw [plain.records_eq, Options.rendering, Option.toList_none, List.append_nil]

end UnwritableTarget

end DatalogStrata
