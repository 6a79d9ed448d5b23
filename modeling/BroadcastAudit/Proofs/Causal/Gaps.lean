import BroadcastAudit.Proofs.Causal.Counts
import Mathlib.Data.List.Flatten
import Mathlib.Data.Prod.Basic

set_option autoImplicit false

namespace BroadcastAudit.Causal

open Replays

def Misses (config : Dependencies) (traces : List Trace) (read : List LogEntry)
    (message : Message) : Prop :=
  ∃ earlier : Message, earlier.sender ≠ message.sender ∧
    config.Depends message.sender earlier.sender ∧
      DeliversBeforeBroadcast traces earlier message ∧ earlier ∉ History.deliveries read

def Report.Flags (report : Report) (process : ProcessId) (line : Nat) (message : Message) : Prop :=
  ∃ violation ∈ report.violations,
    violation.process = process ∧ violation.line = line ∧ violation.message = message

def Violation.delivery (violation : Violation) : ProcessId × Message :=
  (violation.process, violation.message)

theorem mem_violations_reportOf (config : Dependencies) (traces : List Trace)
    (violation : Violation) :
    violation ∈ (reportOf config traces).violations ↔
      ∃ trace ∈ traces, trace.process = violation.process ∧
        (stampsOf config traces)[violation.message]? = some violation.required ∧
          ∃ read, read ++ [⟨violation.line, .deliver violation.message⟩] <+: trace.entries ∧
            violation.observed = observedAfter config.processCount read ∧
              ¬ violation.observed.Covers violation.required := by
  simp only [reportOf, Report.join, traceReport, violationsIn, List.mem_flatMap, List.mem_map,
    exists_exists_and_eq_and, List.mem_filterMap, Prod.exists, mem_withPast,
    violation?_eq_some_iff]
  constructor
  next =>
    rintro ⟨trace, member, read, _, reads, process, rfl, found, observed, uncovered⟩
    exact ⟨trace, member, process.symm, found, read, reads, observed, uncovered⟩
  next =>
    rintro ⟨trace, member, process, found, read, reads, observed, uncovered⟩
    exact ⟨trace, member, read, _, reads, process.symm, rfl, found, observed, uncovered⟩

theorem filter_eq_singleton {α κ : Type} [DecidableEq κ] (key : α → κ) {xs : List α}
    (nodup : (xs.map key).Nodup) {x : α} (member : x ∈ xs) :
    xs.filter (fun y => key y = key x) = [x] := by
  induction xs with
  | nil => cases member
  | cons y ys ih =>
    obtain ⟨fresh, rest⟩ := List.nodup_cons.1 nodup
    rcases List.mem_cons.1 member with rfl | inside
    next =>
      have none : ys.filter (fun y => key y = key x) = [] := by
        rw [List.filter_eq_nil_iff]
        intro z inside same
        exact fresh (List.mem_map.2 ⟨z, inside, of_decide_eq_true same⟩)
      simp [none]
    next =>
      have apart : ¬ key y = key x := fun same => fresh (same ▸ List.mem_map_of_mem inside)
      simpa [apart] using ih rest inside

section Faultless

variable {config : Dependencies} {traces : List Trace}

theorem Faultless.slot_sender_observed (run : Faultless config.processCount traces) {trace : Trace}
    (member : trace ∈ traces) {read : List LogEntry} {line : Nat} {message : Message}
    (reads : read ++ [⟨line, .deliver message⟩] <+: trace.entries) :
    (observedAfter config.processCount read).slot message.sender + 1 = message.seq := by
  have delivered := History.mem_deliveries_of_read reads
  have expected : message.seq = _ := (run.inOrder trace member).expected reads
  rw [slot_observedAfter _ _ (run.noCreation trace member message delivered).1]
  exact expected.symm

theorem Faultless.covers_iff (run : Faultless config.processCount traces) {trace : Trace}
    (member : trace ∈ traces) {read : List LogEntry} {line : Nat} {message : Message}
    (reads : read ++ [⟨line, .deliver message⟩] <+: trace.entries) {required : VectorClock}
    (found : (stampsOf config traces)[message]? = some required) :
    (observedAfter config.processCount read).Covers required ↔
      ¬ Misses config traces read message := by
  have inOrder := (run.inOrder trace member).of_read reads
  rw [covers_iff_forall_message]
  constructor
  next =>
    rintro covers ⟨earlier, other, depends, delivered, missing⟩
    have inRun := (Dependencies.le_processCount_of_depends depends).2
    have positive := run.one_le_of_isBroadcast (run.isBroadcast_of_delivers delivered)
    have counted := (run.le_slot_iff found other positive).2 ⟨depends, delivered⟩
    exact missing ((le_slot_observedAfter_iff inOrder inRun positive).1
      (covers earlier positive counted))
  next =>
    intro complete earlier positive counted
    by_cases other : earlier.sender = message.sender
    next =>
      -- Both slots count the messages before this one, the stamp's at the sender and the
      -- receiver's at its own deliveries.
      have own := run.slot_own found
      have received := run.slot_sender_observed member reads
      rw [other] at counted ⊢
      omega
    next =>
      obtain ⟨depends, delivered⟩ := (run.le_slot_iff found other positive).1 counted
      have inRun := (Dependencies.le_processCount_of_depends depends).2
      rw [le_slot_observedAfter_iff inOrder inRun positive]
      by_contra missing
      exact complete ⟨earlier, other, depends, delivered, missing⟩

theorem Faultless.flags_iff_misses (run : Faultless config.processCount traces) {trace : Trace}
    (member : trace ∈ traces) {read : List LogEntry} {line : Nat} {message : Message}
    (reads : read ++ [⟨line, .deliver message⟩] <+: trace.entries) :
    (reportOf config traces).Flags trace.process line message ↔
      Misses config traces read message := by
  simp only [Report.Flags, mem_violations_reportOf]
  constructor
  next =>
    rintro ⟨violation, ⟨other, otherMember, same, found, past, otherReads, observed, uncovered⟩,
      process, rfl, rfl⟩
    obtain rfl := run.oneEach.unique otherMember member (same.trans process)
    obtain ⟨rfl, -⟩ := (run.inOrder other member).delivery_unique otherReads reads
    rw [observed, run.covers_iff member reads found, not_not] at uncovered
    exact uncovered
  next =>
    intro misses
    have delivered := History.mem_deliveries_of_read reads
    obtain ⟨required, found⟩ :=
      exists_stamp config (run.noCreation trace member message delivered).2
    refine ⟨⟨trace.process, line, message, required, observedAfter config.processCount read⟩,
      ⟨trace, member, rfl, found, read, reads, rfl, ?_⟩, rfl, rfl, rfl⟩
    rw [run.covers_iff member reads found]
    exact not_not_intro misses

theorem delivery_sublist (processCount : Nat) (stamps : Stamps) (process : ProcessId)
    (entries : List LogEntry) :
    ((violationsIn processCount stamps process entries).map Violation.delivery).Sublist
      ((History.deliveries entries).map (process, ·)) := by
  induction entries using List.reverseRecOn with
  | nil => simp [violationsIn]
  | append_singleton read entry ih =>
    rw [violationsIn_append_singleton, History.deliveries_append, List.map_append, List.map_append]
    refine ih.append ?_
    cases found : violation? processCount stamps process (read, entry) with
    | none => simp
    | some violation =>
      obtain ⟨rfl, rfl, -⟩ := (violation?_eq_some_iff ..).1 found
      simp [Violation.delivery]

theorem Faultless.nodup_delivery (run : Faultless config.processCount traces) :
    ((reportOf config traces).violations.map Violation.delivery).Nodup := by
  have once : (traces.flatMap fun trace =>
      (History.deliveries trace.entries).map (trace.process, ·)).Nodup := by
    rw [List.nodup_flatMap]
    constructor
    next =>
      intro trace member
      exact (run.inOrder trace member).nodup_deliveries.map (Prod.mk_right_injective _)
    next =>
      refine (List.pairwise_map.1 run.oneEach.nodup).imp ?_
      intro trace other apart delivery inTrace inOther
      obtain ⟨message, -, rfl⟩ := List.mem_map.1 inTrace
      obtain ⟨_, -, eq⟩ := List.mem_map.1 inOther
      exact apart (congrArg Prod.fst eq).symm
  refine List.Nodup.sublist ?_ once
  simp only [reportOf, Report.join, List.map_flatMap, List.flatMap_map, traceReport]
  exact List.Sublist.flatMap_right traces fun trace _ => delivery_sublist ..

end Faultless

/-- No false alarm and none missed: a delivery is flagged, once, if and only if its process has
missed a direct dependency of the message. -/
theorem flags_iff_missed_dependency {config : Dependencies} {traces : List Trace} {report : Report}
    (oneEach : OneTraceEach config.processCount traces)
    (fifo : ∀ trace ∈ traces, (Fifo.check trace.process trace.entries).violation = none)
    (checked : check config traces = .ok report) :
    (∀ trace ∈ traces, ∀ read line message,
      read ++ [⟨line, .deliver message⟩] <+: trace.entries →
        (report.Flags trace.process line message ↔ Misses config traces read message) ∧
          (report.Flags trace.process line message →
            ∃ required observed,
              report.violations.filter (fun violation =>
                violation.process = trace.process ∧ violation.message = message) =
                  [⟨trace.process, line, message, required, observed⟩])) ∧
      ∀ violation ∈ report.violations, ∃ trace ∈ traces, trace.process = violation.process ∧
        ∃ read, read ++ [⟨violation.line, .deliver violation.message⟩] <+: trace.entries := by
  obtain ⟨run, rfl⟩ := faultless_of_check oneEach fifo checked
  constructor
  next =>
    intro trace member read line message reads
    refine ⟨run.flags_iff_misses member reads, ?_⟩
    rintro ⟨⟨process, number, reported, required, observed⟩, found, rfl, rfl, rfl⟩
    have alone := filter_eq_singleton Violation.delivery run.nodup_delivery found
    refine ⟨required, observed, ?_⟩
    simpa [Violation.delivery] using alone
  next =>
    intro violation found
    obtain ⟨trace, member, process, -, read, reads, -⟩ := (mem_violations_reportOf ..).1 found
    exact ⟨trace, member, process, read, reads⟩

-- Process 4 hears of process 3's message before it hears of what that one depends on.
def crossedTraces : List Trace :=
  [⟨.ofIndex 0, "1.output", "1.output", [⟨1, .broadcast 1⟩]⟩,
    ⟨.ofIndex 1, "2.output", "2.output", [⟨1, .deliver ⟨.ofIndex 0, 1⟩⟩, ⟨2, .broadcast 1⟩]⟩,
    ⟨.ofIndex 2, "3.output", "3.output",
      [⟨1, .deliver ⟨.ofIndex 0, 1⟩⟩, ⟨2, .deliver ⟨.ofIndex 1, 1⟩⟩, ⟨3, .broadcast 1⟩]⟩,
    ⟨.ofIndex 3, "4.output", "4.output",
      [⟨1, .deliver ⟨.ofIndex 2, 1⟩⟩, ⟨2, .deliver ⟨.ofIndex 0, 1⟩⟩,
        ⟨3, .deliver ⟨.ofIndex 1, 1⟩⟩]⟩]

def crossedConfig : Dependencies :=
  .ofNumbers 1 [[], [1], [2], []]

def crossedReport : Report where
  violations := [⟨.ofIndex 3, 1, ⟨.ofIndex 2, 1⟩, ⟨[0, 1, 0, 0]⟩, ⟨[0, 0, 0, 0]⟩⟩]
  deliveries := 6

theorem flags_iff_missed_dependency_crossed :
    OneTraceEach crossedConfig.processCount crossedTraces ∧
      (∀ trace ∈ crossedTraces, (Fifo.check trace.process trace.entries).violation = none) ∧
        check crossedConfig crossedTraces = .ok crossedReport ∧
          (crossedReport.Flags (.ofIndex 3) 1 ⟨.ofIndex 2, 1⟩ ↔
            Misses crossedConfig crossedTraces [] ⟨.ofIndex 2, 1⟩) := by
  have oneEach : OneTraceEach crossedConfig.processCount crossedTraces := by decide
  have fifo : ∀ trace ∈ crossedTraces,
      (Fifo.check trace.process trace.entries).violation = none := by decide
  have checked : check crossedConfig crossedTraces = .ok crossedReport := by decide +kernel
  refine ⟨oneEach, fifo, checked, ?_⟩
  have judged := (flags_iff_missed_dependency oneEach fifo checked).1
  exact (judged crossedTraces[3] (List.getElem_mem _) [] 1 _ (by decide)).1

end BroadcastAudit.Causal
