import BroadcastAudit.Proofs.Causal.Strictness
import BroadcastAudit.Proofs.Fifo.Agreement
import BroadcastAudit.Proofs.Fifo.Outcome
import BroadcastAudit.Proofs.Layout
import BroadcastAudit.Proofs.Links.Acceptance
import BroadcastAudit.Proofs.Links.Readers

set_option autoImplicit false

namespace BroadcastAudit

open Replays

namespace LogFile

variable {log : LogFile} {entries : List LogEntry}

theorem pairwise_line_of_parse (parsed : log.parse = .ok entries) :
    entries.Pairwise fun entry later => entry.line < later.line := by
  have numbers := ((parse_eq_ok_iff_lineByLine log.name log.text entries).1 parsed).1
  rw [← List.pairwise_map, numbers]
  exact List.pairwise_lt_range'

theorem exists_line_of_parse (parsed : log.parse = .ok entries) :
    ∀ entry ∈ entries, ∃ line ∈ log.lines, line.number = entry.line ∧ line.Tells entry.event := by
  intro entry member
  obtain ⟨index, inside, rfl⟩ := List.getElem_of_mem member
  have each := (mapM_eq_ok_iff ..).1 parsed
  have within : index < log.lines.length := each.length_eq ▸ inside
  obtain ⟨number, read⟩ := (log.readLine_eq_ok_iff ..).1 (each.get within inside)
  exact ⟨log.lines[index], List.getElem_mem within, number, (Text.Line.tells_iff ..).2 read⟩

end LogFile

namespace Causal

def Violation.place (violation : Violation) : Nat × Nat :=
  (violation.process.val, violation.line)

section Violations

variable (processCount : Nat) (stamps : Stamps) (process : ProcessId) {entries : List LogEntry}

theorem process_of_mem_violationsOf :
    ∀ violation ∈ violationsOf (findingsIn processCount stamps process entries),
      violation.process = process := by
  intro violation member
  obtain ⟨finding, found, rfl⟩ := List.mem_map.1 member
  obtain ⟨read, entry, -, -, violates⟩ := (mem_findingsIn ..).1 found
  exact ((violation?_eq_some_iff ..).1 violates).1

theorem mem_entries_of_mem_violationsOf :
    ∀ violation ∈ violationsOf (findingsIn processCount stamps process entries),
      ⟨violation.line, .deliver violation.message⟩ ∈ entries := by
  intro violation member
  obtain ⟨finding, found, rfl⟩ := List.mem_map.1 member
  exact List.mem_of_getElem? (getElem?_of_mem_findingsIn _ _ _ found)

theorem pairwise_violationsOf
    (lines : entries.Pairwise fun entry later => entry.line < later.line) :
    (violationsOf (findingsIn processCount stamps process entries)).Pairwise
      fun violation later => violation.line < later.line := by
  rw [violationsOf, List.pairwise_map]
  refine (pairwise_findingsIn processCount stamps process entries).imp_of_mem ?_
  intro finding later found laterFound before
  obtain ⟨inside, here⟩ :=
    List.getElem?_eq_some_iff.1 (getElem?_of_mem_findingsIn _ _ _ found)
  obtain ⟨within, there⟩ :=
    List.getElem?_eq_some_iff.1 (getElem?_of_mem_findingsIn _ _ _ laterFound)
  have less := List.pairwise_iff_getElem.1 lines _ _ inside within before
  rwa [here, there] at less

end Violations

section Reports

variable (config : Dependencies) {traces : List Trace}

theorem pairwise_place_reportOf (ascending : ProcessId.Ascending (traces.map (·.process)))
    (lines : ∀ trace ∈ traces, trace.entries.Pairwise fun entry later => entry.line < later.line) :
    ((reportOf config traces).violations.map Violation.place).Pairwise
      (Prod.Lex (· < ·) (· < ·)) := by
  rw [List.pairwise_map, violations_reportOf, List.pairwise_flatMap]
  constructor
  next =>
    intro trace member
    refine (pairwise_violationsOf _ _ _ (lines trace member)).imp_of_mem ?_
    intro violation later found laterFound less
    rw [Violation.place, Violation.place, process_of_mem_violationsOf _ _ _ _ found,
      process_of_mem_violationsOf _ _ _ _ laterFound]
    exact .right _ less
  next =>
    refine (List.pairwise_map.1 ascending).imp fun less violation found later laterFound => ?_
    rw [← process_of_mem_violationsOf _ _ _ _ found,
      ← process_of_mem_violationsOf _ _ _ _ laterFound] at less
    exact .left _ _ less

theorem exists_delivery_of_mem_reportOf :
    ∀ violation ∈ (reportOf config traces).violations, ∃ trace ∈ traces,
      trace.process = violation.process ∧
        ⟨violation.line, .deliver violation.message⟩ ∈ trace.entries := by
  intro violation member
  rw [violations_reportOf, List.mem_flatMap] at member
  obtain ⟨trace, listed, found⟩ := member
  exact ⟨trace, listed, (process_of_mem_violationsOf _ _ _ _ found).symm,
    mem_entries_of_mem_violationsOf _ _ _ _ found⟩

theorem deliveries_reportOf_eq (inOrder : ∀ trace ∈ traces, Fifo.InOrder trace.entries) :
    (reportOf config traces).deliveries = (Fifo.Report.ofTraces traces).delivered := by
  rw [deliveries_reportOf, Fifo.Report.ofTraces]
  refine congrArg _ (List.map_congr_left fun trace member => ?_)
  rw [(inOrder trace member).check_eq trace.process]

theorem Run.eq_reportOf {run : Run} {report : Report} (made : ofTraces config traces = .ok run)
    (judged : run.causal = some report) :
    report = reportOf config traces ∧ ∀ trace ∈ traces, Fifo.InOrder trace.entries := by
  simp only [ofTraces] at made
  split at made
  next correct =>
    obtain ⟨causal, checked, made⟩ := (bind_eq_ok_iff ..).1 made
    cases made
    cases judged
    obtain ⟨-, -, rfl⟩ := (check_eq_ok_iff_recoverable ..).1 checked
    exact ⟨rfl, (Fifo.Report.isCorrect_ofTraces_iff traces).1 correct⟩
  next =>
    cases made
    cases judged

end Reports

end Causal

namespace FileSystem

variable {files : FileSystem} {dir configPath : String}

theorem readTrace_eq_ok_iff (process : ProcessId) (path : String) (trace : Trace) :
    files.readTrace process path = .ok trace ↔
      ∃ log entries, files.readLog path = .ok log ∧ log.parse = .ok entries ∧
        ⟨process, path, log.name, entries⟩ = trace := by
  simp only [readTrace, bind_eq_ok_iff, pure, Except.pure, Except.ok.injEq]
  constructor
  next =>
    rintro ⟨log, read, entries, parsed, rfl⟩
    exact ⟨log, entries, read, parsed, rfl⟩
  next =>
    rintro ⟨log, entries, read, parsed, rfl⟩
    exact ⟨log, read, entries, parsed, rfl⟩

theorem exists_holds_of_readRun {config : Dependencies} {traces : List Trace}
    (read : files.readRun dir configPath = .ok (config, traces)) :
    ∃ outputs, files.Holds dir outputs (files.logOf outputs) ∧
      outputs.files.keys = traces.map (·.process) ∧
        ∀ trace ∈ traces, (files.logOf outputs trace.process).parse = .ok trace.entries := by
  obtain ⟨outputs, scanned, keys, logs⟩ := files.exists_outputs_of_readRun read
  have each {process : ProcessId} {trace : Trace}
      (found : (outputs.pathOf process >>= files.readTrace process) = .ok trace) :
      outputs.readLog files process = .ok (files.logOf outputs process) ∧
        trace.process = process ∧ (files.logOf outputs process).parse = .ok trace.entries := by
    obtain ⟨path, place, traced⟩ := (bind_eq_ok_iff ..).1 found
    obtain ⟨log, entries, logged, parsed, rfl⟩ := (readTrace_eq_ok_iff ..).1 traced
    have opened : outputs.readLog files process = .ok log :=
      (bind_eq_ok_iff ..).2 ⟨path, place, logged⟩
    obtain rfl := files.eq_logOf opened
    exact ⟨opened, rfl, parsed⟩
  refine ⟨outputs, ⟨scanned, fun process known => ?_⟩, ?_, fun trace member => ?_⟩
  next =>
    rw [← Std.ExtTreeMap.mem_keys, keys] at known
    obtain ⟨trace, found⟩ := (exists_mapM_eq_ok_iff ..).1 ⟨traces, logs⟩ process known
    exact (each found).1
  next => rw [keys, files.processes_of_readRun read]
  next =>
    obtain ⟨index, inside, rfl⟩ := List.getElem_of_mem member
    have read := (mapM_eq_ok_iff ..).1 logs
    obtain ⟨-, process, parsed⟩ := each (read.get (by rw [read.length_eq]; exact inside) inside)
    rw [← process] at parsed
    exact parsed

/-- The report of a causal audit and its FIFO report count the same deliveries, which are those on
the lines of all logs. Its violations come in the order of the processes and their lines, and each
is found on a line of the process's log that delivers the message. -/
theorem causal_report_consistent {run : Causal.Run} {report : Causal.Report}
    (audited : files.auditCausal dir configPath = .ok run) (judged : run.causal = some report) :
    ∃ outputs log, files.Holds dir outputs log ∧
      report.deliveries = run.fifo.delivered ∧
      run.fifo.delivered =
        (outputs.files.keys.map fun process =>
          (log process).lines.countP fun line => ∃ message, line.Tells (.deliver message)).sum ∧
      (report.violations.map Causal.Violation.place).Pairwise (Prod.Lex (· < ·) (· < ·)) ∧
      (report.violations.map Causal.Violation.place).Nodup ∧
      ∀ violation ∈ report.violations, violation.process ∈ outputs.files ∧
        ∃ line ∈ (log violation.process).lines, line.number = violation.line ∧
          line.Tells (.deliver violation.message) := by
  obtain ⟨config, traces, read, made⟩ := (files.auditCausal_eq_ok_iff ..).1 audited
  obtain ⟨rfl, inOrder⟩ := Causal.Run.eq_reportOf config made judged
  obtain ⟨outputs, holds, keys, parsed⟩ := exists_holds_of_readRun read
  have counted := Causal.deliveries_reportOf_eq config inOrder
  have ascending : ProcessId.Ascending (traces.map (·.process)) := keys ▸ outputs.ascending_keys
  have places := Causal.pairwise_place_reportOf config ascending fun trace member =>
    LogFile.pairwise_line_of_parse (parsed trace member)
  rw [Causal.Run.fifo_of_ofTraces made]
  refine ⟨outputs, files.logOf outputs, holds, counted, ?_, places, ?_, ?_⟩
  next =>
    rw [← counted, Causal.deliveries_reportOf, keys, List.map_map]
    refine congrArg _ (List.map_congr_left fun trace member => ?_)
    rw [Function.comp_apply, ← LogFile.length_deliveredMessages,
      LogFile.deliveredMessages_eq_deliveries (parsed trace member)]
  next =>
    refine places.imp fun before same => ?_
    subst same
    simp [Prod.lex_def] at before
  next =>
    intro violation member
    obtain ⟨trace, listed, process, delivery⟩ :=
      Causal.exists_delivery_of_mem_reportOf config violation member
    rw [← process]
    refine ⟨?_, LogFile.exists_line_of_parse (parsed trace listed) _ delivery⟩
    rw [← Std.ExtTreeMap.mem_keys, keys]
    exact List.mem_map_of_mem listed

def overtakenFiles : FileSystem :=
  .ofList [("config", .file (.ok "1\n1\n2 1\n3 1\n")),
    ("runs", .directory (.ok ["3.output", "1.output", "02.output"])),
    ("runs/1.output", .file (.ok "b 1\nd 3 1\nd 2 1\n")),
    ("runs/02.output", .file (.ok "d 1 1\nb 1")),
    ("runs/3.output", .file (.ok "d 2 1\r\nd 1 1\nb 1\n\n"))]

def overtakenReport : Causal.Report where
  violations := [⟨.ofIndex 0, 2, ⟨.ofIndex 2, 1⟩, ⟨[1, 0, 0]⟩, ⟨[0, 0, 0]⟩⟩,
    ⟨.ofIndex 0, 3, ⟨.ofIndex 1, 1⟩, ⟨[1, 0, 0]⟩, ⟨[0, 0, 1]⟩⟩,
    ⟨.ofIndex 2, 1, ⟨.ofIndex 1, 1⟩, ⟨[1, 0, 0]⟩, ⟨[0, 0, 0]⟩⟩]
  deliveries := 5

def overtakenRun : Causal.Run where
  fifo := ⟨[⟨.ofIndex 0, "runs/1.output", none⟩, ⟨.ofIndex 1, "runs/02.output", none⟩,
    ⟨.ofIndex 2, "runs/3.output", none⟩], 5⟩
  causal := some overtakenReport
  overruns := []

theorem causal_report_consistent_overtaken :
    overtakenFiles.auditCausal "runs" "config" = .ok overtakenRun ∧
      overtakenRun.causal = some overtakenReport ∧
        ∃ outputs log, overtakenFiles.Holds "runs" outputs log ∧
          (outputs.files.keys.map fun process =>
            (log process).lines.countP fun line =>
              ∃ message, line.Tells (.deliver message)).sum = 5 ∧
            (overtakenReport.violations.map Causal.Violation.place).Pairwise
              (Prod.Lex (· < ·) (· < ·)) ∧
              ∃ line ∈ (log (.ofIndex 2)).lines, line.number = 1 ∧
                line.Tells (.deliver ⟨.ofIndex 1, 1⟩) := by
  have audited : overtakenFiles.auditCausal "runs" "config" = .ok overtakenRun := by
    decide +kernel
  obtain ⟨outputs, log, holds, -, counted, places, -, found⟩ :=
    causal_report_consistent audited rfl
  obtain ⟨-, delivery⟩ := found overtakenReport.violations[2] (by decide)
  exact ⟨audited, rfl, outputs, log, holds, counted.symm, places, delivery⟩

end FileSystem

end BroadcastAudit
