import BroadcastAudit.Proofs.Causal.Faultless
import BroadcastAudit.Proofs.Files.RunFiles

set_option autoImplicit false

namespace BroadcastAudit.Causal

open Replays

def unsent? (processCount : Nat) (stamps : Stamps) : ScanPoint → Option Fault
  | .whole _ => none
  | .entry trace entry => receivingFault? processCount stamps trace entry

theorem judgeFault?_eq_firstError (processCount : Nat) (stamps : Stamps) (traces : List Trace) :
    judgeFault? processCount stamps traces =
      firstError (fun _ => unsent? processCount stamps) (scan traces) := by
  rw [firstError_const, judgeFault?]
  induction traces with
  | nil => rfl
  | cons trace rest ih =>
    have split : scan (trace :: rest) = ScanPoint.ofTrace trace ++ scan rest := rfl
    have here : (ScanPoint.ofTrace trace).findSome? (unsent? processCount stamps) =
        trace.entries.findSome? (receivingFault? processCount stamps trace) := List.findSome?_map
    rw [split, List.findSome?_append, here, ← ih, List.findSome?_cons]
    cases trace.entries.findSome? (receivingFault? processCount stamps trace) <;> rfl

section Recoverable

variable {config : Dependencies} {traces : List Trace}

theorem Recoverable.unsent?_eq_some_iff (recoverable : Recoverable config.processCount traces)
    {point : ScanPoint} (member : point ∈ scan traces) (fault : Fault) :
    unsent? config.processCount (stampsOf config traces) point = some fault ↔
      Unsent traces point fault := by
  rcases point with trace | ⟨trace, line, seq | message⟩
  next => exact ⟨nofun, nofun⟩
  next => exact ⟨nofun, nofun⟩
  next =>
    obtain ⟨inTraces, inEntries⟩ := (mem_scan_entry ..).1 member
    have inRun := recoverable.sendersInRun trace inTraces message
      ((History.mem_deliveries_iff ..).2 ⟨line, inEntries⟩)
    simp only [unsent?, receivingFault?, inRun, if_true]
    constructor
    next =>
      intro found
      obtain ⟨unknown, ⟨⟩⟩ := Option.ite_none_left_eq_some.1 found
      exact .neverBroadcast trace line message (mt (mem_stampsOf ..).2 unknown)
    next =>
      intro wrong
      cases wrong with
      | neverBroadcast _ _ _ unsent => exact if_neg (mt (mem_stampsOf ..).1 unsent)

theorem Recoverable.judgeFault?_eq_some_iff (recoverable : Recoverable config.processCount traces)
    (fault : Fault) :
    judgeFault? config.processCount (stampsOf config traces) traces = some fault ↔
      FirstFault (fun _ => Unsent traces) (scan traces) fault := by
  rw [judgeFault?_eq_firstError, firstFault_iff]
  exact fun before point cause inside =>
    recoverable.unsent?_eq_some_iff (inside.subset (by simp)) cause

theorem Recoverable.judgeFault?_eq_none_iff (recoverable : Recoverable config.processCount traces) :
    judgeFault? config.processCount (stampsOf config traces) traces = none ↔
      FaultFree (fun _ => Unsent traces) (scan traces) := by
  rw [judgeFault?_eq_firstError, faultFree_iff]
  exact fun before point cause inside =>
    recoverable.unsent?_eq_some_iff (inside.subset (by simp)) cause

end Recoverable

theorem checkFault?_eq_some_iff (config : Dependencies) (traces : List Trace) (fault : Fault) :
    checkFault? config traces = some fault ↔
      FirstFault (Inadmissible config.processCount) (scan traces) fault ∨
        FaultFree (Inadmissible config.processCount) (scan traces) ∧
          FirstFault (fun _ => Unsent traces) (scan traces) fault := by
  rw [checkFault?, Option.or_eq_some_iff, recoverFault?_eq_some_iff,
    recoverFault?_eq_none_iff_faultFree]
  refine or_congr_right (and_congr_right fun free => ?_)
  exact ((faultFree_inadmissible_iff ..).1 free).judgeFault?_eq_some_iff fault

theorem checkFault?_eq_none_iff_faultFree (config : Dependencies) (traces : List Trace) :
    checkFault? config traces = none ↔
      FaultFree (Inadmissible config.processCount) (scan traces) ∧
        FaultFree (fun _ => Unsent traces) (scan traces) := by
  rw [checkFault?, Option.or_eq_none_iff, recoverFault?_eq_none_iff_faultFree]
  refine and_congr_right fun free => ?_
  exact ((faultFree_inadmissible_iff ..).1 free).judgeFault?_eq_none_iff

theorem check_eq_error_iff (config : Dependencies) (traces : List Trace) (failure : Failure) :
    check config traces = .error failure ↔
      ∃ fault, failure = .fault fault ∧
        (FirstFault (Inadmissible config.processCount) (scan traces) fault ∨
          FaultFree (Inadmissible config.processCount) (scan traces) ∧
            FirstFault (fun _ => Unsent traces) (scan traces) fault) := by
  simp only [← checkFault?_eq_some_iff, check_eq_settle]
  cases checkFault? config traces <;> simp [settle, eq_comm]

theorem exists_report_iff (config : Dependencies) (traces : List Trace) :
    (∃ report, check config traces = .ok report) ↔
      FaultFree (Inadmissible config.processCount) (scan traces) ∧
        FaultFree (fun _ => Unsent traces) (scan traces) := by
  rw [← checkFault?_eq_none_iff_faultFree, check_eq_settle]
  cases checkFault? config traces <;> simp [settle]

theorem neverBroadcast_of_firstFault_unsent {traces : List Trace} {fault : Fault}
    (first : FirstFault (fun _ => Unsent traces) (scan traces) fault) :
    ∃ place message, fault = .neverBroadcast place message := by
  obtain ⟨_, _, -, -, wrong⟩ := first
  cases wrong with
  | neverBroadcast trace line message _ => exact ⟨_, _, rfl⟩

theorem not_neverBroadcast_of_inadmissible {config : Dependencies} {traces : List Trace}
    (faulty : ¬ FaultFree (Inadmissible config.processCount) (scan traces)) (place : Place)
    (message : Message) :
    check config traces ≠ .error (.fault (.neverBroadcast place message)) := by
  intro ended
  obtain ⟨fault, eq, first | ⟨free, -⟩⟩ := (check_eq_error_iff ..).1 ended
  next =>
    cases eq
    obtain ⟨_, _, -, -, ⟨⟩⟩ := first
  next => exact faulty free

theorem not_unknownSender_of_recover {config : Dependencies} {traces : List Trace}
    {stamps : Stamps} (recovered : Stamps.recover config traces = .ok stamps) (place : Place)
    (process : ProcessId) (processCount : Nat) :
    judge config stamps traces ≠ .error (.fault (.unknownSender place process processCount)) := by
  obtain ⟨recoverable, rfl⟩ := (recover_eq_ok_iff ..).1 recovered
  rw [judge_eq_settle config _ (sized_stampsOf config traces)]
  intro ended
  cases found : judgeFault? config.processCount (stampsOf config traces) traces with
  | none =>
    rw [found] at ended
    cases ended
  | some fault =>
    rw [found] at ended
    cases ended
    have first := (recoverable.judgeFault?_eq_some_iff _).1 found
    obtain ⟨_, _, eq⟩ := neverBroadcast_of_firstFault_unsent first
    cases eq

theorem fault_of_inOrder {config : Dependencies} {traces : List Trace} {failure : Failure}
    (oneEach : OneTraceEach config.processCount traces)
    (inOrder : ∀ trace ∈ traces, Fifo.InOrder trace.entries)
    (ended : check config traces = .error failure) :
    ∃ place, (∃ process, failure = .fault (.unknownSender place process config.processCount)) ∨
      ∃ message, failure = .fault (.neverBroadcast place message) := by
  obtain ⟨fault, rfl, first | ⟨-, first⟩⟩ := (check_eq_error_iff ..).1 ended
  next =>
    obtain ⟨before, point, inside, -, wrong⟩ := first
    have member : point ∈ scan traces := inside.subset (by simp)
    cases wrong with
    | unknownLog trace outside =>
      have inRun := oneEach.inRun ((mem_scan_whole ..).1 member)
      omega
    | unknownSender trace line message _ => exact ⟨_, .inl ⟨_, rfl⟩⟩
    | repeatedBroadcast trace line seq repeated =>
      have once := oneEach.nodup_sent inOrder
      exact absurd repeated ((nodup_sent_iff _).1 once before _ _ inside rfl)
  next =>
    obtain ⟨place, message, rfl⟩ := neverBroadcast_of_firstFault_unsent first
    exact ⟨place, .inr ⟨message, rfl⟩⟩

/-- How a check ends, on any traces; on those of a run whose files are in FIFO order it can only end
early at a delivery, of an unknown sender or of an unknown message. -/
theorem check_outcome (config : Dependencies) (traces : List Trace) :
    (∀ failure, check config traces = .error failure ↔
        ∃ fault, failure = .fault fault ∧
          (FirstFault (Inadmissible config.processCount) (scan traces) fault ∨
            FaultFree (Inadmissible config.processCount) (scan traces) ∧
              FirstFault (fun _ => Unsent traces) (scan traces) fault)) ∧
      ((∃ report, check config traces = .ok report) ↔
        FaultFree (Inadmissible config.processCount) (scan traces) ∧
          FaultFree (fun _ => Unsent traces) (scan traces)) ∧
      (¬ FaultFree (Inadmissible config.processCount) (scan traces) → ∀ place message,
        check config traces ≠ .error (.fault (.neverBroadcast place message))) ∧
      (∀ stamps, Stamps.recover config traces = .ok stamps → ∀ place process processCount,
        judge config stamps traces ≠
          .error (.fault (.unknownSender place process processCount))) ∧
      ∀ (files : FileSystem) (dir configPath : String),
        files.readRun dir configPath = .ok (config, traces) →
          (Fifo.Report.ofTraces traces).isCorrect = true →
            ∀ failure, check config traces = .error failure →
              ∃ place,
                (∃ process, failure =
                  .fault (.unknownSender place process config.processCount)) ∨
                ∃ message, failure = .fault (.neverBroadcast place message) := by
  refine ⟨check_eq_error_iff config traces, exists_report_iff config traces,
    not_neverBroadcast_of_inadmissible, fun stamps => not_unknownSender_of_recover, ?_⟩
  intro files dir configPath read correct failure
  have oneEach : OneTraceEach config.processCount traces := .of_eq (files.processes_of_readRun read)
  exact fault_of_inOrder oneEach ((Fifo.Report.isCorrect_ofTraces_iff traces).1 correct)

def lateTraces : List Trace :=
  [⟨.ofIndex 0, "1.output", "1.output", [⟨1, .deliver ⟨.ofIndex 1, 9⟩⟩]⟩,
    ⟨.ofIndex 1, "2.output", "2.output", [⟨1, .broadcast 1⟩, ⟨2, .broadcast 1⟩]⟩]

def lateFault : Fault :=
  .repeatedBroadcast ⟨"2.output", 2⟩ ⟨.ofIndex 1, 1⟩

def unsentFiles : FileSystem :=
  .ofList [("config", .file (.ok "1\n1 2\n2 1\n")),
    ("runs", .directory (.ok ["1.output", "2.output"])),
    ("runs/1.output", .file (.ok "b 1\nd 2 1\n")),
    ("runs/2.output", .file (.ok "d 1 1\n"))]

def unsentTraces : List Trace :=
  [⟨.ofIndex 0, "runs/1.output", "1.output",
      [⟨1, .broadcast 1⟩, ⟨2, .deliver ⟨.ofIndex 1, 1⟩⟩]⟩,
    ⟨.ofIndex 1, "runs/2.output", "2.output", [⟨1, .deliver ⟨.ofIndex 0, 1⟩⟩]⟩]

def unsentFault : Fault :=
  .neverBroadcast ⟨"1.output", 2⟩ ⟨.ofIndex 1, 1⟩

theorem check_outcome_late_unsent :
    check (.ofNumbers 1 [[], []]) lateTraces = .error (.fault lateFault) ∧
      FirstFault (Inadmissible 2) (scan lateTraces) lateFault ∧
        unsentFiles.readRun "runs" "config" = .ok (.ofNumbers 1 [[2], [1]], unsentTraces) ∧
          (Fifo.Report.ofTraces unsentTraces).isCorrect = true ∧
            check (.ofNumbers 1 [[2], [1]]) unsentTraces = .error (.fault unsentFault) ∧
              FirstFault (fun _ => Unsent unsentTraces) (scan unsentTraces) unsentFault := by
  have late : check (.ofNumbers 1 [[], []]) lateTraces = .error (.fault lateFault) := by
    decide +kernel
  have lateFirst : FirstFault (Inadmissible 2) (scan lateTraces) lateFault := by
    obtain ⟨fault, same, first | ⟨-, first⟩⟩ := ((check_outcome _ lateTraces).1 _).1 late
    next =>
      cases same
      exact first
    next =>
      obtain ⟨_, _, rfl⟩ := neverBroadcast_of_firstFault_unsent first
      cases same
  have read : unsentFiles.readRun "runs" "config" =
      .ok (.ofNumbers 1 [[2], [1]], unsentTraces) := by decide +kernel
  have correct : (Fifo.Report.ofTraces unsentTraces).isCorrect = true := by decide +kernel
  have unsent : check (.ofNumbers 1 [[2], [1]]) unsentTraces = .error (.fault unsentFault) := by
    decide +kernel
  have unsentFirst : FirstFault (fun _ => Unsent unsentTraces) (scan unsentTraces) unsentFault := by
    obtain ⟨fault, same, first | ⟨-, first⟩⟩ := ((check_outcome _ unsentTraces).1 _).1 unsent
    next =>
      cases same
      obtain ⟨_, _, -, -, ⟨⟩⟩ := first
    next =>
      cases same
      exact first
  exact ⟨late, lateFirst, read, correct, unsent, unsentFirst⟩

end BroadcastAudit.Causal
