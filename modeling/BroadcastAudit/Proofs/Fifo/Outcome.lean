import BroadcastAudit.Proofs.CommandLine
import BroadcastAudit.Proofs.Fifo.Accepted
import BroadcastAudit.Proofs.Files.Enumeration
import BroadcastAudit.Proofs.MalformedLines
import BroadcastAudit.Proofs.Text.LastLine
import Mathlib.Algebra.GroupWithZero.Nat

set_option autoImplicit false

namespace BroadcastAudit

open Replays

namespace Fifo

structure Report.Describes (report : Report) (outputs : Outputs)
    (entries : ProcessId → List LogEntry) : Prop where
  listed : report.files.map (fun file => (file.process, file.path)) = outputs.toList
  ascending : ProcessId.Ascending (report.files.map (·.process))
  inOrder : ∀ file ∈ report.files, file.violation = none ↔ InOrder (entries file.process)
  first : ∀ file ∈ report.files, ∀ violation, file.violation = some violation →
    violation.process = file.process ∧
      ∃ entry, inOrderPart (entries file.process) ++ [entry] <+: entries file.process ∧
        violation.line = entry.line
  failures : report.failures =
    outputs.files.keys.countP fun process => ¬ InOrder (entries process)
  delivered : report.delivered =
    (outputs.files.keys.map fun process =>
      (History.deliveries (inOrderPart (entries process))).length).sum

def traceOf (log : ProcessId → LogFile) (entries : ProcessId → List LogEntry)
    (output : ProcessId × String) : Trace :=
  ⟨output.1, output.2, (log output.1).name, entries output.1⟩

section Traces

variable (outputs : Outputs) (log : ProcessId → LogFile) (entries : ProcessId → List LogEntry)

theorem Report.violation_ofTraces :
    ∀ file ∈ (ofTraces (outputs.toList.map (traceOf log entries))).files,
      file.violation = (check file.process (entries file.process)).violation := by
  intro file member
  obtain ⟨trace, traced, rfl⟩ := List.mem_map.1 member
  obtain ⟨output, -, rfl⟩ := List.mem_map.1 traced
  rfl

theorem Report.describes_ofTraces :
    (ofTraces (outputs.toList.map (traceOf log entries))).Describes outputs entries where
  listed := by simp [ofTraces, FileResult.ofTrace, traceOf, Function.comp_def]
  ascending := by
    have keys := outputs.ascending_keys
    rw [outputs.keys_eq] at keys
    simpa [ofTraces, FileResult.ofTrace, traceOf, Function.comp_def] using keys
  inOrder file member := by
    rw [violation_ofTraces outputs log entries file member]
    exact (check_tells ..).inOrder
  first file member := by
    rw [violation_ofTraces outputs log entries file member]
    exact (check_tells ..).first
  failures := by
    simp only [Report.failures, ofTraces, outputs.keys_eq, List.countP_map]
    refine List.countP_congr fun output _ => ?_
    simp [FileResult.isCorrect, FileResult.ofTrace, traceOf, Option.isSome_iff_ne_none,
      ← violation_check_eq_none_iff output.1]
  delivered := by
    simp only [ofTraces, outputs.keys_eq, List.map_map, List.sum]
    simp [Function.comp_def, traceOf, (check_tells _ _).delivered]

end Traces

theorem Report.Describes.isCorrect_iff {report : Report} {outputs : Outputs}
    {entries : ProcessId → List LogEntry} (describes : report.Describes outputs entries) :
    report.isCorrect = true ↔ ∀ process ∈ outputs.files, InOrder (entries process) := by
  simp [isCorrect, describes.failures, List.countP_eq_zero, Std.ExtTreeMap.mem_keys]

theorem Report.endsLine_filesText {report : Report} (nonempty : report.files ≠ []) :
    Text.EndsLine report.filesText := by
  obtain ⟨before, last, split⟩ := (List.eq_nil_or_concat' report.files).resolve_left nonempty
  rw [filesText, split, List.map_append, String.join_append, List.map_singleton, String.join_cons,
    String.join_nil, String.append_empty]
  exact Text.EndsLine.append _ ⟨last.text, rfl⟩

theorem Report.lastLine?_text {report : Report} (incorrect : report.isCorrect = false) :
    Text.lastLine? report.text =
      some ("Number of failures detected: " ++ toString report.failures) := by
  have nonempty : report.files ≠ [] := by
    intro none
    rw [isCorrect, failures, none] at incorrect
    cases incorrect
  have text : report.text = report.filesText ++
      ("Number of failures detected: " ++ toString report.failures) ++ "\n" := by
    rw [Report.text, if_neg (by simp [incorrect]), String.append_assoc, String.append_assoc]
    rfl
  rw [text]
  refine Text.lastLine?_of_endsLine (endsLine_filesText nonempty) _ ?_
  rw [String.toList_append, List.mem_append, not_or]
  refine ⟨by decide, fun member => ?_⟩
  have digit := Numeral.isDigit_toString report.failures '\n' member
  cases digit

theorem Report.endsLine_text (report : Report) : Text.EndsLine report.text := by
  refine Text.EndsLine.append _ ?_
  split
  next => exact Text.EndsLine.append _ ⟨_, rfl⟩
  next => exact ⟨"Number of failures detected: " ++ toString report.failures, by
    rw [String.append_assoc]; rfl⟩

end Fifo

structure FileSystem.Holds (files : FileSystem) (dir : String) (outputs : Outputs)
    (log : ProcessId → LogFile) : Prop where
  scanned : Outputs.ofDir files dir = .ok outputs
  readable : ∀ process ∈ outputs.files, outputs.readLog files process = .ok (log process)

def FirstMalformed (outputs : Outputs) (log : ProcessId → LogFile) (process : ProcessId)
    (line : Text.Line) : Prop :=
  process ∈ outputs.files ∧ (log process).FirstMalformed line ∧
    ∀ other ∈ outputs.files, other.val < process.val →
      ∀ line ∈ (log other).lines, ¬ line.Malformed

def AllInOrder (outputs : Outputs) (log : ProcessId → LogFile) : Prop :=
  ∀ process ∈ outputs.files, ∃ entries, (log process).parse = .ok entries ∧ Fifo.InOrder entries

namespace FileSystem

variable {files : FileSystem} {dir : String} {outputs : Outputs} {log : ProcessId → LogFile}

theorem Holds.readTrace_eq (holds : files.Holds dir outputs log) {output : ProcessId × String}
    (member : output ∈ outputs.toList) :
    files.readTrace output.1 output.2 =
      (⟨output.1, output.2, (log output.1).name, ·⟩) <$> (log output.1).parse := by
  have found := (outputs.pathOf_eq_ok_iff output.1 output.2).2 member
  have read := holds.readable output.1 ((outputs.mem_files_iff output.1).2 ⟨output.2, member⟩)
  simp only [Outputs.readLog, found, bind, Except.bind] at read
  rw [readTrace, read, map_eq_pure_bind]
  rfl

theorem Holds.exists_readTrace_iff (holds : files.Holds dir outputs log)
    {output : ProcessId × String} (member : output ∈ outputs.toList) :
    (∃ trace, files.readTrace output.1 output.2 = .ok trace) ↔
      ∃ entries, (log output.1).parse = .ok entries := by
  rw [holds.readTrace_eq member, exists_map_eq_ok_iff]

theorem Holds.exists_firstMalformed (holds : files.Holds dir outputs log) {fault : Fault}
    (failed : (outputs.toList.mapM fun output => files.readTrace output.1 output.2) =
      .error fault) :
    ∃ process line, FirstMalformed outputs log process line ∧
      .notAnEvent ((log process).place line) line.span = fault := by
  obtain ⟨before, output, after, split, failed, earlier⟩ := (mapM_eq_error_iff ..).1 failed
  have member : output ∈ outputs.toList := by simp [split]
  rw [holds.readTrace_eq member, map_eq_error_iff] at failed
  obtain ⟨line, first, same⟩ := ((log output.1).parse_eq_error_iff fault).1 failed
  refine ⟨output.1, line, ⟨(outputs.mem_files_iff _).2 ⟨_, member⟩, first, ?_⟩, same⟩
  intro other known less
  obtain ⟨path, listed⟩ := (outputs.mem_files_iff other).1 known
  have inside := outputs.mem_before_of_less split listed less
  rw [← LogFile.exists_parse_iff, ← holds.exists_readTrace_iff listed]
  exact earlier _ inside

theorem Holds.auditFifo_tells (holds : files.Holds dir outputs log) :
    (∃ process line, FirstMalformed outputs log process line ∧
        files.auditFifo dir outputs.size =
          .error (.notAnEvent ((log process).place line) line.span)) ∨
      ∃ entries report, (∀ process ∈ outputs.files, (log process).parse = .ok (entries process)) ∧
        files.auditFifo dir outputs.size = .ok report ∧ report.Describes outputs entries := by
  rw [files.auditFifo_eq holds.scanned]
  cases read : outputs.toList.mapM fun output => files.readTrace output.1 output.2 with
  | error fault =>
    left
    obtain ⟨process, line, first, rfl⟩ := holds.exists_firstMalformed read
    exact ⟨process, line, first, rfl⟩
  | ok traces =>
    right
    have each : ∀ process ∈ outputs.files, ∃ entries, (log process).parse = .ok entries := by
      intro process known
      obtain ⟨path, member⟩ := (outputs.mem_files_iff process).1 known
      have traced := (exists_mapM_eq_ok_iff ..).1 ⟨traces, read⟩ _ member
      exact (holds.exists_readTrace_iff member).1 traced
    choose! entries parsed using each
    have traced : ∀ output ∈ outputs.toList,
        files.readTrace output.1 output.2 = .ok (Fifo.traceOf log entries output) := by
      intro output member
      rw [holds.readTrace_eq member, parsed _ ((outputs.mem_files_iff _).2 ⟨_, member⟩)]
      rfl
    rw [mapM_eq_ok_map traced] at read
    cases read
    exact ⟨entries, _, parsed, rfl, Fifo.Report.describes_ofTraces outputs log entries⟩

theorem Holds.correct_iff (holds : files.Holds dir outputs log) :
    (∃ report, files.auditFifo dir outputs.size = .ok report ∧ report.isCorrect = true) ↔
      AllInOrder outputs log := by
  rcases holds.auditFifo_tells with ⟨process, line, first, failed⟩ |
    ⟨entries, report, parsed, audited, describes⟩
  next =>
    obtain ⟨known, ⟨malformed, before, after, split, -⟩, -⟩ := first
    constructor
    next =>
      rintro ⟨report, audited, -⟩
      rw [failed] at audited
      cases audited
    next =>
      intro each
      obtain ⟨entries, parsed, -⟩ := each process known
      have wellFormed := (LogFile.exists_parse_iff _).1 ⟨entries, parsed⟩
      exact absurd malformed (wellFormed line (by simp [split]))
  next =>
    simp only [audited, Except.ok.injEq, exists_eq_left', describes.isCorrect_iff]
    refine forall₂_congr fun process known => ?_
    rw [parsed process known]
    simp

variable (files) in
def runFifo (processCount : Nat) (dir : String) : Outcome :=
  (Invocation.read ["fifo", "--proc_num", toString processCount, "--out_dir", dir]).execute files

theorem isDirectory_of_ofDir (scanned : Outputs.ofDir files dir = .ok outputs) :
    files.isDirectory dir = true := by
  obtain ⟨names, listed, -⟩ := (bind_eq_ok_iff ..).1 scanned
  unfold readNames at listed
  split at listed
  next found => simp [isDirectory, found]
  all_goals cases listed

theorem runFifo_eq (scanned : Outputs.ofDir files dir = .ok outputs) :
    files.runFifo outputs.size dir =
      if 0 < outputs.size ∧ Options.isValue dir = true then
        (Command.fifo outputs.size dir).run files
      else .usageError := by
  have denotes := Numeral.denotes_toString (outputs.size_lt_limit scanned)
  have found : (Command.fifo outputs.size dir).pathsExist files = true :=
    isDirectory_of_ofDir scanned
  rw [runFifo, Invocation.read_fifo denotes, Invocation.execute_ite found]

theorem fifo_run_tells {processCount : Nat} {outcome : Outcome}
    (ran : (Command.fifo processCount dir).run files = outcome) :
    (outcome.exitCode = 0 ↔
        ∃ report, files.auditFifo dir processCount = .ok report ∧ report.isCorrect = true) ∧
      (outcome.exitCode ≠ 0 → outcome.exitCode = 1) ∧
        (outcome.stdout = "" ↔ ∃ fault, files.auditFifo dir processCount = .error fault) ∧
          ∀ report, files.auditFifo dir processCount = .ok report → report.isCorrect = false →
            Text.lastLine? outcome.stdout =
              some ("Number of failures detected: " ++ toString report.failures) := by
  subst ran
  cases audited : files.auditFifo dir processCount with
  | error fault => simp [Command.run, audited, Outcome.failure]
  | ok report =>
    have printed := report.endsLine_text.ne_empty
    cases verdict : report.isCorrect with
    | true => simp [Command.run, audited, verdict, Outcome.success, printed]
    | false =>
      have last := Fifo.Report.lastLine?_text verdict
      simp [Command.run, audited, verdict, Outcome.failure, printed, last]

/-- The audit of as many output files as there are ends at the first malformed line of the first
process that has one, whatever came before; with none, its report describes all logs. The program
says which, unless there is no output file or the directory's name looks like an option. -/
theorem fifo_outcome (holds : files.Holds dir outputs log) :
    ((∃ process line, FirstMalformed outputs log process line ∧
          files.auditFifo dir outputs.size =
            .error (.notAnEvent ((log process).place line) line.span)) ∨
        ∃ entries report, (∀ process ∈ outputs.files,
            (log process).parse = .ok (entries process)) ∧
          files.auditFifo dir outputs.size = .ok report ∧ report.Describes outputs entries) ∧
      (0 < outputs.size ∧ Options.isValue dir = true →
        ((files.runFifo outputs.size dir).exitCode = 0 ↔ AllInOrder outputs log) ∧
          ((files.runFifo outputs.size dir).exitCode ≠ 0 →
            (files.runFifo outputs.size dir).exitCode = 1) ∧
          ((files.runFifo outputs.size dir).stdout = "" ↔
            ∃ fault, files.auditFifo dir outputs.size = .error fault) ∧
          ∀ report, files.auditFifo dir outputs.size = .ok report → report.isCorrect = false →
            Text.lastLine? (files.runFifo outputs.size dir).stdout =
              some ("Number of failures detected: " ++ toString report.failures)) ∧
      (¬ (0 < outputs.size ∧ Options.isValue dir = true) →
        files.runFifo outputs.size dir = .usageError) := by
  refine ⟨holds.auditFifo_tells, ?_⟩
  rw [runFifo_eq holds.scanned]
  constructor
  next =>
    intro accepted
    rw [if_pos accepted, ← holds.correct_iff]
    exact fifo_run_tells rfl
  next => exact fun refused => if_neg refused

def maskedFiles : FileSystem :=
  .ofList [("runs", .directory (.ok ["2.output", "1.output"])),
    ("runs/1.output", .file (.ok "d 1 2\n")),
    ("runs/2.output", .file (.ok "b 1\nb two\n"))]

theorem fifo_outcome_masked :
    ∃ outputs log, maskedFiles.Holds "runs" outputs log ∧ outputs.size = 2 ∧
      Options.isValue "runs" = true ∧
        maskedFiles.auditFifo "runs" 2 = .error (.notAnEvent ⟨"2.output", 2⟩ ⟨4, 5⟩) ∧
          (maskedFiles.runFifo 2 "runs").exitCode = 1 ∧
            (maskedFiles.runFifo 2 "runs").stdout = "" := by
  let outputs := Outputs.after (maskedFiles.entries "runs" ["2.output", "1.output"])
  let log (process : ProcessId) : LogFile :=
    if process.val = 1 then ⟨"1.output", "d 1 2\n"⟩ else ⟨"2.output", "b 1\nb two\n"⟩
  have keys : outputs.files.keys = [.ofIndex 0, .ofIndex 1] := by decide +kernel
  have holds : maskedFiles.Holds "runs" outputs log := by
    refine ⟨rfl, fun process known => ?_⟩
    rw [← Std.ExtTreeMap.mem_keys, keys, List.mem_cons, List.mem_singleton] at known
    rcases known with rfl | rfl <;> rfl
  have size : outputs.size = 2 := by decide +kernel
  have value : Options.isValue "runs" = true := by decide
  have failed : maskedFiles.auditFifo "runs" 2 =
      .error (.notAnEvent ⟨"2.output", 2⟩ ⟨4, 5⟩) := by decide +kernel
  have program := (fifo_outcome holds).2.1
  rw [size] at program
  obtain ⟨-, code, silent, -⟩ := program ⟨by decide, value⟩
  have refused : (maskedFiles.runFifo 2 "runs").exitCode ≠ 0 := by decide +kernel
  exact ⟨outputs, log, holds, size, value, failed, code refused, silent.2 ⟨_, failed⟩⟩

def refusedFiles : FileSystem :=
  .ofList [("runs", .directory (.ok [])), ("-runs", .directory (.ok ["1.output"])),
    ("-runs/1.output", .file (.ok "b 1\n"))]

theorem fifo_refused_though_in_order :
    (refusedFiles.Holds "runs" .empty (fun _ => ⟨"", ""⟩) ∧
        ¬ ((refusedFiles.runFifo Outputs.empty.size "runs").exitCode = 0 ↔
          AllInOrder .empty fun _ => ⟨"", ""⟩)) ∧
      ∃ outputs, refusedFiles.Holds "-runs" outputs (fun _ => ⟨"1.output", "b 1\n"⟩) ∧
        ¬ ((refusedFiles.runFifo outputs.size "-runs").exitCode = 0 ↔
          AllInOrder outputs fun _ => ⟨"1.output", "b 1\n"⟩) := by
  constructor
  next =>
    have absent (process : ProcessId) : process ∉ Outputs.empty.files := by simp [Outputs.empty]
    refine ⟨⟨rfl, fun process known => absurd known (absent process)⟩, fun same => ?_⟩
    have refused : (refusedFiles.runFifo Outputs.empty.size "runs").exitCode = 2 := by
      decide +kernel
    have passed := same.2 fun process known => absurd known (absent process)
    rw [refused] at passed
    cases passed
  next =>
    let outputs := Outputs.after (refusedFiles.entries "-runs" ["1.output"])
    have keys : outputs.files.keys = [.ofIndex 0] := by decide +kernel
    have only : ∀ process ∈ outputs.files, process = .ofIndex 0 := by
      intro process known
      rwa [← Std.ExtTreeMap.mem_keys, keys, List.mem_singleton] at known
    refine ⟨outputs, ⟨rfl, fun process known => ?_⟩, fun same => ?_⟩
    next =>
      rw [only process known]
      rfl
    next =>
      have refused : (refusedFiles.runFifo outputs.size "-runs").exitCode = 2 := by
        decide +kernel
      have parsed : LogFile.parse ⟨"1.output", "b 1\n"⟩ = .ok [⟨1, .broadcast 1⟩] := by
        decide +kernel
      have passed := same.2 fun _ _ => ⟨_, parsed, by decide⟩
      rw [refused] at passed
      cases passed

end FileSystem

end BroadcastAudit
