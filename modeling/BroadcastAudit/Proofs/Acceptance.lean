import BroadcastAudit.Proofs.Causal.Verdict
import BroadcastAudit.Proofs.CommandLine
import BroadcastAudit.Proofs.Files.RunFiles

set_option autoImplicit false

namespace BroadcastAudit

open Replays

namespace FileSystem

variable (files : FileSystem)

def Accepted (dir : String) (names : List String) (configPath text : String) : Prop :=
  ∃ config traces, Dependencies.parse (Path.fileName configPath) text = .ok config ∧
    List.Forall₂ (files.ReadsAs dir) (files.outputNames dir names) traces ∧
      Causal.Faultless config.processCount traces ∧ Causal.PastDelivered config traces

def runCausal (configPath dir : String) : Outcome :=
  (Invocation.read ["causal", "--config_file", configPath, "--out_dir", dir]).execute files

theorem auditCausal_eq_ok_iff (dir configPath : String) (run : Causal.Run) :
    files.auditCausal dir configPath = .ok run ↔
      ∃ config traces, files.readRun dir configPath = .ok (config, traces) ∧
        Causal.Run.ofTraces config traces = .ok run := by
  unfold auditCausal
  cases files.readRun dir configPath with
  | error fault => simp [Except.mapError, bind, Except.bind]
  | ok found => simp [Except.mapError, bind, Except.bind, Prod.ext_iff, and_assoc]

theorem fault_of_auditCausal {dir configPath : String} {failure : Failure}
    (failed : files.auditCausal dir configPath = .error failure) :
    ∃ fault, failure = .fault fault := by
  unfold auditCausal at failed
  cases read : files.readRun dir configPath with
  | error fault =>
    rw [read] at failed
    cases failed
    exact ⟨fault, rfl⟩
  | ok found =>
    rw [read] at failed
    exact Causal.Run.fault_of_ofTraces failed

theorem accepted_iff_audit {dir configPath text : String} {names : List String}
    (directory : files.find dir = .ok (.directory (.ok names)))
    (settings : files.find configPath = .ok (.file (.ok text)))
    (visible : Outputs.Visible (files.entries dir names)) :
    files.Accepted dir names configPath text ↔
      ∃ run, files.auditCausal dir configPath = .ok run ∧ run.verdict = .correct := by
  have parses (config : Dependencies) : files.readDependencies configPath = .ok config ↔
      Dependencies.parse (Path.fileName configPath) text = .ok config := by
    simp [readDependencies, bind_eq_ok_iff, readText_eq_ok_iff, settings]
  simp only [auditCausal_eq_ok_iff, files.readRun_eq_ok_iff_readsAs directory visible, parses]
  constructor
  next =>
    rintro ⟨config, found, parsed, read, faultless, past⟩
    obtain ⟨traces, inRun, perm⟩ := faultless.oneEach.exists_sorted
    have oneEach : Causal.OneTraceEach config.processCount traces := .of_eq inRun
    obtain ⟨run, made, correct⟩ := (Causal.Run.ofTraces_correct_iff config traces oneEach).2
      ⟨fun trace member => faultless.inOrder trace (perm.mem_iff.2 member),
        faultless.noCreation.of_perm perm, past.of_perm perm⟩
    exact ⟨run, ⟨config, traces, ⟨parsed, inRun, found, read, perm⟩, made⟩, correct⟩
  next =>
    rintro ⟨run, ⟨config, traces, ⟨parsed, inRun, found, read, perm⟩, made⟩, correct⟩
    obtain ⟨inOrder, noCreation, past⟩ :=
      (Causal.Run.ofTraces_correct_iff config traces (.of_eq inRun)).1 ⟨run, made, correct⟩
    refine ⟨config, found, parsed, read, ⟨?_, ?_, noCreation.of_perm perm.symm⟩,
      past.of_perm perm.symm⟩
    next => exact (perm.map _).trans (.of_eq inRun)
    next => exact fun trace member => inOrder trace (perm.mem_iff.1 member)

theorem runCausal_eq (configPath dir : String) (names : List String) (text : String)
    (directory : files.find dir = .ok (.directory (.ok names)))
    (settings : files.find configPath = .ok (.file (.ok text))) :
    files.runCausal configPath dir =
      if Options.isValue configPath && Options.isValue dir then
        (Command.causal configPath dir).run files
      else .usageError := by
  have found : (Command.causal configPath dir).pathsExist files = true := by
    simp [Command.pathsExist, isFile, isDirectory, directory, settings]
  rw [runCausal, Invocation.read_causal, Invocation.execute_ite found]

theorem causal_run_tells {configPath dir : String} {outcome : Outcome}
    (ran : (Command.causal configPath dir).run files = outcome) :
    (outcome.exitCode = 0 ↔
        ∃ run, files.auditCausal dir configPath = .ok run ∧ run.verdict = .correct) ∧
      (outcome.exitCode ≠ 0 → outcome.exitCode = 1) ∧
        (Text.lastLine? outcome.stdout = some "CORRECT" ↔ outcome.exitCode = 0) ∧
          (outcome.stdout = "" ↔
            ∃ fault, files.auditCausal dir configPath = .error (.fault fault)) := by
  subst ran
  cases audited : files.auditCausal dir configPath with
  | error failure =>
    obtain ⟨fault, rfl⟩ := files.fault_of_auditCausal audited
    have silent : Text.lastLine? "" ≠ some "CORRECT" := by decide
    simp [Command.run, audited, Outcome.failure, silent]
  | ok run =>
    have last := run.lastLine?_text
    cases verdict : run.verdict with
    | correct =>
      rw [verdict] at last
      have correct : toString Causal.Verdict.correct = "CORRECT" := rfl
      simp [Command.run, audited, verdict, Outcome.success, last, correct, run.text_ne_empty]
    | incorrect =>
      rw [verdict] at last
      have incorrect : toString Causal.Verdict.incorrect = "INCORRECT" := rfl
      simp [Command.run, audited, verdict, Outcome.failure, last, incorrect, run.text_ne_empty]

/-- The program accepts what is accepted by the files alone, and ends with 1 otherwise; the last
line says which. It does not get that far if a path looks like an option. -/
theorem causal_accepts_iff {configPath dir text : String} {names : List String}
    (directory : files.find dir = .ok (.directory (.ok names)))
    (settings : files.find configPath = .ok (.file (.ok text)))
    (visible : ∀ name ∈ names, Outputs.isOutputName name = true →
      ∃ entry, files.find (Path.join dir name) = .ok entry) :
    (Options.isValue configPath = true ∧ Options.isValue dir = true →
      ((files.runCausal configPath dir).exitCode = 0 ↔
          files.Accepted dir names configPath text) ∧
        ((files.runCausal configPath dir).exitCode ≠ 0 →
          (files.runCausal configPath dir).exitCode = 1) ∧
        (Text.lastLine? (files.runCausal configPath dir).stdout = some "CORRECT" ↔
          (files.runCausal configPath dir).exitCode = 0) ∧
        ((files.runCausal configPath dir).stdout = "" ↔
          ∃ fault, files.auditCausal dir configPath = .error (.fault fault))) ∧
      (¬ (Options.isValue configPath = true ∧ Options.isValue dir = true) →
        files.runCausal configPath dir = .usageError) := by
  rw [files.runCausal_eq configPath dir names text directory settings, ← Bool.and_eq_true]
  constructor
  next =>
    intro values
    rw [if_pos values, files.accepted_iff_audit directory settings
      (files.visible_entries_iff dir names |>.2 visible)]
    exact files.causal_run_tells rfl
  next => exact fun option => if_neg option

def pairFiles : FileSystem :=
  .ofList [("config", .file (.ok "1\n1 2\n2 1\n")),
    ("runs", .directory (.ok ["2.output", "notes", "01.output"])),
    ("runs/01.output", .file (.ok "b 1\nd 1 1\nd 2 1\n")),
    ("runs/2.output", .file (.ok "d 1 1\nb 1\nd 2 1\n"))]

theorem causal_accepts_iff_pair :
    pairFiles.find "runs" = .ok (.directory (.ok ["2.output", "notes", "01.output"])) ∧
      pairFiles.find "config" = .ok (.file (.ok "1\n1 2\n2 1\n")) ∧
        Options.isValue "config" = true ∧ Options.isValue "runs" = true ∧
          pairFiles.Accepted "runs" ["2.output", "notes", "01.output"] "config"
            "1\n1 2\n2 1\n" := by
  have directory : pairFiles.find "runs" =
      .ok (.directory (.ok ["2.output", "notes", "01.output"])) := rfl
  have settings : pairFiles.find "config" = .ok (.file (.ok "1\n1 2\n2 1\n")) := rfl
  have visible : ∀ name ∈ ["2.output", "notes", "01.output"], Outputs.isOutputName name = true →
      ∃ entry, pairFiles.find (Path.join "runs" name) = .ok entry := by
    simp only [List.forall_mem_cons, List.not_mem_nil, false_implies, implies_true, and_true]
    exact ⟨fun _ => ⟨_, rfl⟩, fun named => absurd named (by decide), fun _ => ⟨_, rfl⟩⟩
  have configValue : Options.isValue "config" = true := by decide
  have dirValue : Options.isValue "runs" = true := by decide
  have accepts :=
    (causal_accepts_iff pairFiles directory settings visible).1 ⟨configValue, dirValue⟩
  have passed : (pairFiles.runCausal "config" "runs").exitCode = 0 := by decide +kernel
  exact ⟨directory, settings, configValue, dirValue, accepts.1.1 passed⟩

def dashedFiles : FileSystem :=
  .ofList [("config", .file (.ok "0\n")), ("-runs", .directory (.ok []))]

theorem dashed_refused_though_accepted :
    dashedFiles.find "-runs" = .ok (.directory (.ok [])) ∧
      dashedFiles.find "config" = .ok (.file (.ok "0\n")) ∧
        dashedFiles.Accepted "-runs" [] "config" "0\n" ∧
          (dashedFiles.runCausal "config" "-runs").exitCode = 2 ∧
            ¬ ((dashedFiles.runCausal "config" "-runs").exitCode = 0 ↔
              dashedFiles.Accepted "-runs" [] "config" "0\n") := by
  have directory : dashedFiles.find "-runs" = .ok (.directory (.ok [])) := rfl
  have settings : dashedFiles.find "config" = .ok (.file (.ok "0\n")) := rfl
  have accepted : dashedFiles.Accepted "-runs" [] "config" "0\n" := by
    have visible : Outputs.Visible (dashedFiles.entries "-runs" []) := by
      rintro _ ⟨⟩
    rw [accepted_iff_audit dashedFiles directory settings visible]
    exact ⟨⟨⟨[], 0⟩, some ⟨[], 0⟩, []⟩, by decide +kernel, rfl⟩
  have refused : (dashedFiles.runCausal "config" "-runs").exitCode = 2 := by decide +kernel
  refine ⟨directory, settings, accepted, refused, fun same => ?_⟩
  have passed := same.2 accepted
  rw [refused] at passed
  cases passed

end FileSystem

end BroadcastAudit
