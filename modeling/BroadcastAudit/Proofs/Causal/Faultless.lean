import BroadcastAudit.Proofs.Causal.Judgement
import BroadcastAudit.Proofs.Causal.Recoverable
import BroadcastAudit.Proofs.Fifo.Accepted
import Mathlib.Data.List.Nodup

set_option autoImplicit false

namespace BroadcastAudit.Causal

open Replays

def NoCreation (processCount : Nat) (traces : List Trace) : Prop :=
  ∀ trace ∈ traces, ∀ message ∈ History.deliveries trace.entries,
    message.sender.val ≤ processCount ∧ IsBroadcast traces message

theorem NoCreation.of_perm {processCount : Nat} {traces others : List Trace}
    (perm : traces.Perm others) (noCreation : NoCreation processCount traces) :
    NoCreation processCount others := by
  intro trace member message delivered
  obtain ⟨inRun, sent⟩ := noCreation trace (perm.mem_iff.2 member) message delivered
  exact ⟨inRun, sent.mono perm.subset⟩

structure Faultless (processCount : Nat) (traces : List Trace) : Prop where
  oneEach : OneTraceEach processCount traces
  inOrder : ∀ trace ∈ traces, Fifo.InOrder trace.entries
  noCreation : NoCreation processCount traces

theorem deliversBeforeBroadcast_iff (traces : List Trace) (earlier later : Message) :
    DeliversBeforeBroadcast traces earlier later ↔
      ∃ trace ∈ traces, trace.process = later.sender ∧
        ∃ read line, read ++ [⟨line, .broadcast later.seq⟩] <+: trace.entries ∧
          earlier ∈ History.deliveries read := by
  constructor
  next =>
    rintro ⟨trace, member, sender, read, line, rest, eq, delivered⟩
    exact ⟨trace, member, sender, read, line, ⟨rest, by simp [eq]⟩, delivered⟩
  next =>
    rintro ⟨trace, member, sender, read, line, ⟨rest, eq⟩, delivered⟩
    exact ⟨trace, member, sender, read, line, rest, by simp [← eq], delivered⟩

section OneTraceEach

variable {processCount : Nat} {traces : List Trace}

theorem OneTraceEach.nodup (oneEach : OneTraceEach processCount traces) :
    (traces.map (·.process)).Nodup := by
  rw [oneEach.nodup_iff]
  exact ProcessId.nodup_all processCount

theorem OneTraceEach.unique (oneEach : OneTraceEach processCount traces) {trace other : Trace}
    (member : trace ∈ traces) (otherMember : other ∈ traces)
    (same : trace.process = other.process) : trace = other :=
  List.inj_on_of_nodup_map oneEach.nodup member otherMember same

theorem OneTraceEach.inRun (oneEach : OneTraceEach processCount traces) {trace : Trace}
    (member : trace ∈ traces) : trace.process.val ≤ processCount :=
  (ProcessId.mem_all ..).1 (oneEach.subset (List.mem_map_of_mem member))

theorem OneTraceEach.nodup_sent (oneEach : OneTraceEach processCount traces)
    (inOrder : ∀ trace ∈ traces, Fifo.InOrder trace.entries) : (sent (scan traces)).Nodup := by
  rw [sent_scan, List.nodup_flatMap]
  constructor
  next =>
    intro trace member
    refine (inOrder trace member).1.nodup.map fun i j same => ?_
    exact congrArg Message.seq same
  next =>
    refine (List.pairwise_map.1 oneEach.nodup).imp ?_
    intro trace other apart message inTrace inOther
    obtain ⟨_, -, rfl⟩ := List.mem_map.1 inTrace
    obtain ⟨_, -, same⟩ := List.mem_map.1 inOther
    exact apart (congrArg Message.sender same).symm

theorem NoCreation.recoverable (noCreation : NoCreation processCount traces)
    (oneEach : OneTraceEach processCount traces)
    (inOrder : ∀ trace ∈ traces, Fifo.InOrder trace.entries) : Recoverable processCount traces where
  inRun _ member := oneEach.inRun member
  sendersInRun trace member message delivered := (noCreation trace member message delivered).1
  sentOnce := oneEach.nodup_sent inOrder

theorem receivingFault?_eq_none_iff (config : Dependencies) (traces : List Trace)
    (trace : Trace) :
    trace.entries.findSome?
        (receivingFault? config.processCount (stampsOf config traces) trace) = none ↔
      ∀ message ∈ History.deliveries trace.entries,
        message.sender.val ≤ config.processCount ∧ IsBroadcast traces message := by
  simp only [List.findSome?_eq_none_iff, History.mem_deliveries_iff]
  constructor
  next =>
    intro accepted message delivered
    obtain ⟨line, entry⟩ := delivered
    have here := accepted _ entry
    simp only [receivingFault?] at here
    split at here
    next inRun =>
      split at here
      next known => exact ⟨inRun, (mem_stampsOf ..).1 known⟩
      next => cases here
    next => cases here
  next =>
    rintro known ⟨line, seq | message⟩ entry
    next => rfl
    next =>
      obtain ⟨inRun, sent⟩ := known message ⟨line, entry⟩
      simp [receivingFault?, inRun, mem_stampsOf, sent]

theorem judgeFault?_eq_none_iff (config : Dependencies) (traces : List Trace) :
    judgeFault? config.processCount (stampsOf config traces) traces = none ↔
      NoCreation config.processCount traces := by
  rw [judgeFault?, List.findSome?_eq_none_iff, NoCreation]
  exact forall₂_congr fun trace _ => receivingFault?_eq_none_iff config traces trace

theorem check_eq_ok_iff_recoverable (config : Dependencies) (traces : List Trace)
    (report : Report) :
    check config traces = .ok report ↔
      Recoverable config.processCount traces ∧ NoCreation config.processCount traces ∧
        reportOf config traces = report := by
  rw [check_eq_settle, settle_eq_ok_iff, Option.map_eq_none_iff, checkFault?,
    Option.or_eq_none_iff, recoverFault?_eq_none_iff_recoverable, judgeFault?_eq_none_iff,
    and_assoc]

theorem NoCreation.foldlM_step_eq_ok {config : Dependencies} {traces : List Trace}
    (noCreation : NoCreation config.processCount traces) {trace : Trace} (member : trace ∈ traces)
    {read : List LogEntry} (reads : read <+: trace.entries) :
    read.foldlM (Receiving.step config (stampsOf config traces) trace)
        (.start config.processCount) =
      .ok (.after config.processCount (stampsOf config traces) trace.process read) := by
  have accepted := (judgeFault?_eq_none_iff config traces).2 noCreation
  rw [judgeFault?, List.findSome?_eq_none_iff] at accepted
  have entries := List.findSome?_eq_none_iff.1 (accepted trace member)
  have before : read.findSome?
      (receivingFault? config.processCount (stampsOf config traces) trace) = none :=
    List.findSome?_eq_none_iff.2 fun entry inside => entries entry (reads.subset inside)
  rw [Receiving.foldlM_step_eq_settle config _ (sized_stampsOf config traces), before]
  rfl

theorem NoCreation.judgeTrace_eq_ok {config : Dependencies} {traces : List Trace}
    (noCreation : NoCreation config.processCount traces) {trace : Trace} (member : trace ∈ traces) :
    judgeTrace config (stampsOf config traces) trace =
      .ok (traceReport config.processCount (stampsOf config traces) trace) := by
  rw [judgeTrace, noCreation.foldlM_step_eq_ok member (List.prefix_refl _)]
  simp [Receiving.report, Receiving.after, traceReport, Functor.map, Except.map]

theorem check_eq_ok_iff (config : Dependencies) (oneEach : OneTraceEach config.processCount traces)
    (inOrder : ∀ trace ∈ traces, Fifo.InOrder trace.entries) (report : Report) :
    check config traces = .ok report ↔
      NoCreation config.processCount traces ∧ reportOf config traces = report := by
  rw [check_eq_ok_iff_recoverable]
  exact and_iff_right_of_imp fun judged => judged.1.recoverable oneEach inOrder

theorem faultless_of_check {config : Dependencies} {report : Report}
    (oneEach : OneTraceEach config.processCount traces)
    (fifo : ∀ trace ∈ traces, (Fifo.check trace.process trace.entries).violation = none)
    (checked : check config traces = .ok report) :
    Faultless config.processCount traces ∧ reportOf config traces = report := by
  have inOrder : ∀ trace ∈ traces, Fifo.InOrder trace.entries := fun trace member =>
    (Fifo.violation_check_eq_none_iff ..).1 (fifo trace member)
  obtain ⟨noCreation, eq⟩ := (check_eq_ok_iff config oneEach inOrder report).1 checked
  exact ⟨⟨oneEach, inOrder, noCreation⟩, eq⟩

end OneTraceEach

theorem Faultless.recoverable {processCount : Nat} {traces : List Trace}
    (run : Faultless processCount traces) : Recoverable processCount traces :=
  run.noCreation.recoverable run.oneEach run.inOrder

theorem Faultless.recover_eq_ok {config : Dependencies} {traces : List Trace}
    (run : Faultless config.processCount traces) :
    Stamps.recover config traces = .ok (stampsOf config traces) :=
  (recover_eq_ok_iff ..).2 ⟨run.recoverable, rfl⟩

end BroadcastAudit.Causal
