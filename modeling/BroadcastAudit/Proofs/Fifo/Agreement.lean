import BroadcastAudit.Proofs.Acceptance
import BroadcastAudit.Proofs.Files.Enumeration

set_option autoImplicit false

namespace BroadcastAudit

open Replays

theorem Causal.Run.fifo_of_ofTraces {config : Dependencies} {traces : List Trace} {run : Run}
    (made : ofTraces config traces = .ok run) : run.fifo = .ofTraces traces := by
  simp only [ofTraces] at made
  split at made
  next =>
    obtain ⟨causal, -, made⟩ := (bind_eq_ok_iff ..).1 made
    cases made
    rfl
  next =>
    cases made
    rfl

namespace FileSystem

variable (files : FileSystem)

theorem exists_outputs_of_readRun {dir configPath : String} {config : Dependencies}
    {traces : List Trace} (read : files.readRun dir configPath = .ok (config, traces)) :
    ∃ outputs, Outputs.ofDir files dir = .ok outputs ∧
      outputs.files.keys = ProcessId.all config.processCount ∧
        ((ProcessId.all config.processCount).mapM fun process =>
          outputs.pathOf process >>= files.readTrace process) = .ok traces := by
  simp only [readRun, bind_eq_ok_iff, Outputs.requireSize_eq_ok_iff] at read
  obtain ⟨_, -, outputs, scanned, -, size, _, logs, eq⟩ := read
  cases eq
  have each : ∀ process ∈ ProcessId.all config.processCount, process ∈ outputs.files := by
    intro process member
    obtain ⟨trace, found⟩ := (exists_mapM_eq_ok_iff ..).1 ⟨traces, logs⟩ process member
    obtain ⟨path, place, -⟩ := (bind_eq_ok_iff ..).1 found
    exact (outputs.mem_files_iff process).2 ⟨path, (outputs.pathOf_eq_ok_iff process path).1 place⟩
  exact ⟨outputs, scanned, (outputs.keys_eq_all_iff config.processCount).2 ⟨size, each⟩, logs⟩

theorem auditFifo_of_readRun {dir configPath : String} {config : Dependencies}
    {traces : List Trace} (read : files.readRun dir configPath = .ok (config, traces)) :
    files.auditFifo dir config.processCount = .ok (.ofTraces traces) := by
  obtain ⟨outputs, scanned, keys, logs⟩ := files.exists_outputs_of_readRun read
  obtain ⟨size, -⟩ := (outputs.keys_eq_all_iff config.processCount).1 keys
  rw [← size, files.auditFifo_eq scanned, files.mapM_readTrace_toList, keys, logs]
  rfl

theorem auditFifo_of_auditCausal {dir configPath : String} {run : Causal.Run}
    (audited : files.auditCausal dir configPath = .ok run) :
    ∃ config, files.readDependencies configPath = .ok config ∧
      files.auditFifo dir config.processCount = .ok run.fifo ∧
        run.fifo.files.map (·.process) = ProcessId.all config.processCount := by
  obtain ⟨config, traces, read, made⟩ := (files.auditCausal_eq_ok_iff ..).1 audited
  have parsed := read
  simp only [readRun, bind_eq_ok_iff] at parsed
  obtain ⟨_, parsed, _, -, -, -, _, -, eq⟩ := parsed
  cases eq
  have report := files.auditFifo_of_readRun read
  rw [Causal.Run.fifo_of_ofTraces made]
  refine ⟨config, parsed, report, ?_⟩
  rw [← files.processes_of_readRun read, Fifo.Report.ofTraces, List.map_map]
  rfl

/-- The FIFO report of the causal audit is the one of the FIFO audit with the configured number of
processes, and the causal audit ends in a fault where that one does. -/
theorem fifo_audits_agree (dir configPath : String) :
    (∀ run, files.auditCausal dir configPath = .ok run →
        ∃ config, files.readDependencies configPath = .ok config ∧
          files.auditFifo dir config.processCount = .ok run.fifo ∧
            run.fifo.files.map (·.process) = ProcessId.all config.processCount) ∧
      ∀ config fault, files.readDependencies configPath = .ok config →
        files.auditFifo dir config.processCount = .error fault →
          ∃ cause, files.auditCausal dir configPath = .error (.fault cause) := by
  refine ⟨fun run => files.auditFifo_of_auditCausal, fun config fault parsed failed => ?_⟩
  cases audited : files.auditCausal dir configPath with
  | error failure =>
    obtain ⟨cause, rfl⟩ := files.fault_of_auditCausal audited
    exact ⟨cause, rfl⟩
  | ok run =>
    obtain ⟨other, same, report, -⟩ := files.auditFifo_of_auditCausal audited
    rw [parsed] at same
    cases same
    rw [failed] at report
    cases report

-- Process 2 skips a message of process 1, so causal order is not looked at.
def skippingFiles : FileSystem :=
  .ofList [("config", .file (.ok "2\n1\n2 1\n")),
    ("runs", .directory (.ok ["2.output", "1.output"])),
    ("runs/1.output", .file (.ok "b 1\nd 1 1\nb 2\n")),
    ("runs/2.output", .file (.ok "d 1 1\nd 1 3\n"))]

theorem fifo_audits_agree_skipping :
    ∃ run config, skippingFiles.auditCausal "runs" "config" = .ok run ∧
      skippingFiles.readDependencies "config" = .ok config ∧
        skippingFiles.auditFifo "runs" config.processCount = .ok run.fifo ∧
          run.fifo.failures = 1 ∧ run.fifo.delivered = 2 := by
  obtain ⟨run, audited, failures, delivered⟩ : ∃ run,
      skippingFiles.auditCausal "runs" "config" = .ok run ∧ run.fifo.failures = 1 ∧
        run.fifo.delivered = 2 :=
    ⟨⟨⟨[⟨.ofIndex 0, "runs/1.output", none⟩,
        ⟨.ofIndex 1, "runs/2.output", some ⟨.ofIndex 1, 2, .delivery (.ofIndex 0) 2 3⟩⟩], 2⟩, none,
      []⟩, by decide +kernel, by decide +kernel, rfl⟩
  obtain ⟨config, parsed, report, -⟩ :=
    (skippingFiles.fifo_audits_agree "runs" "config").1 run audited
  exact ⟨run, config, audited, parsed, report, failures, delivered⟩

end FileSystem

end BroadcastAudit
