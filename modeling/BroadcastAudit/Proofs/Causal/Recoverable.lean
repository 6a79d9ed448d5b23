import BroadcastAudit.Causal.Scan
import BroadcastAudit.Proofs.Causal.Recovery
import BroadcastAudit.Proofs.Readings
import Mathlib.Data.List.Nodup

set_option autoImplicit false

namespace BroadcastAudit.Causal

open Replays

def inadmissible? (processCount : Nat) (before : List ScanPoint) : ScanPoint → Option Fault
  | .whole trace =>
    if processCount < trace.process.val then
      some (.unknownLog trace.name trace.process processCount)
    else none
  | .entry trace ⟨line, .deliver message⟩ =>
    if processCount < message.sender.val then
      some (.unknownSender ⟨trace.name, line⟩ message.sender processCount)
    else none
  | .entry trace ⟨line, .broadcast seq⟩ =>
    if ⟨trace.process, seq⟩ ∈ sent before then
      some (.repeatedBroadcast ⟨trace.name, line⟩ ⟨trace.process, seq⟩)
    else none

theorem inadmissible?_eq_some_iff (processCount : Nat) (before : List ScanPoint)
    (point : ScanPoint) (fault : Fault) :
    inadmissible? processCount before point = some fault ↔
      Inadmissible processCount before point fault := by
  constructor
  next =>
    intro found
    rcases point with trace | ⟨trace, line, seq | message⟩ <;>
      obtain ⟨wrong, ⟨⟩⟩ := Option.ite_none_right_eq_some.1 found
    next => exact .unknownLog trace wrong
    next => exact .repeatedBroadcast trace line seq wrong
    next => exact .unknownSender trace line message wrong
  next =>
    intro wrong
    cases wrong with
    | unknownLog trace outside => exact if_pos outside
    | unknownSender trace line message outside => exact if_pos outside
    | repeatedBroadcast trace line seq repeated => exact if_pos repeated

section Faults

variable {error? : List ScanPoint → ScanPoint → Option Fault}
  {wrong : List ScanPoint → ScanPoint → Fault → Prop} {points : List ScanPoint}

theorem faultFree_iff
    (tells : ∀ before point fault, before ++ [point] <+: points →
      (error? before point = some fault ↔ wrong before point fault)) :
    FaultFree wrong points ↔ firstError error? points = none := by
  rw [firstError_eq_none_iff]
  refine forall₂_congr fun before point => ?_
  rw [forall_comm]
  refine forall_congr' fun inside => ?_
  rw [Option.eq_none_iff_forall_ne_some]
  exact forall_congr' fun fault => not_congr (tells before point fault inside).symm

theorem firstFault_iff
    (tells : ∀ before point fault, before ++ [point] <+: points →
      (error? before point = some fault ↔ wrong before point fault)) (fault : Fault) :
    FirstFault wrong points fault ↔ firstError error? points = some fault := by
  rw [firstError_eq_some_iff]
  refine exists₂_congr fun before point => and_congr_right fun inside => ?_
  have within : before <+: points := (List.prefix_append _ _).trans inside
  rw [faultFree_iff fun earlier other cause follows =>
    tells earlier other cause (follows.trans within), tells before point fault inside]

end Faults

theorem inadmissible?_entry (config : Dependencies) (earlier : List Trace) (trace : Trace)
    (read : List LogEntry) (entry : LogEntry) :
    inadmissible? config.processCount
        (scan earlier ++ ([.whole trace] ++ read.map (ScanPoint.entry trace)))
        (.entry trace entry) =
      sendingFault? config trace (stampsOf config earlier) read entry := by
  obtain ⟨line, seq | message⟩ := entry
  next =>
    have known : ⟨trace.process, seq⟩ ∈
          sent (scan earlier ++ ([.whole trace] ++ read.map (ScanPoint.entry trace))) ↔
        (⟨trace.process, seq⟩ : Message) ∈ stampsOf config earlier ∨
          seq ∈ History.broadcasts read := by
      rw [sent_append, sent_append, sent_entries, List.mem_append, mem_sent_scan, mem_stampsOf]
      simp [sent, ScanPoint.sent?]
    simp only [inadmissible?, sendingFault?, known]
    rfl
  next =>
    by_cases inRun : message.sender.val ≤ config.processCount
    next => simp [inadmissible?, sendingFault?, inRun]
    next =>
      have outside := Nat.lt_of_not_le inRun
      simp [inadmissible?, sendingFault?, inRun, outside, Trace.place]

theorem traceFault?_eq_firstError (config : Dependencies) (earlier : List Trace) (trace : Trace) :
    traceFault? config (stampsOf config earlier) trace =
      firstError (fun past => inadmissible? config.processCount (scan earlier ++ past))
        (ScanPoint.ofTrace trace) := by
  have split : ScanPoint.ofTrace trace =
      [.whole trace] ++ trace.entries.map (ScanPoint.entry trace) := rfl
  rw [split, firstError_append, firstError_of_map, traceFault?]
  simp only [inadmissible?_entry]
  by_cases outside : config.processCount < trace.process.val <;>
    simp [firstError, withPast, withPastFrom, inadmissible?, outside]

theorem recoverFault?_eq_firstError (config : Dependencies) (traces : List Trace) :
    recoverFault? config traces = firstError (inadmissible? config.processCount) (scan traces) := by
  induction traces using List.reverseRecOn with
  | nil => rfl
  | append_singleton earlier trace ih =>
    rw [scan_append_singleton, firstError_append, ← ih, ← traceFault?_eq_firstError]
    exact firstError_append_singleton ..

theorem recoverFault?_eq_some_iff (config : Dependencies) (traces : List Trace) (fault : Fault) :
    recoverFault? config traces = some fault ↔
      FirstFault (Inadmissible config.processCount) (scan traces) fault := by
  rw [recoverFault?_eq_firstError, firstFault_iff]
  exact fun before point fault _ => inadmissible?_eq_some_iff ..

theorem recoverFault?_eq_none_iff_faultFree (config : Dependencies) (traces : List Trace) :
    recoverFault? config traces = none ↔
      FaultFree (Inadmissible config.processCount) (scan traces) := by
  rw [recoverFault?_eq_firstError, faultFree_iff]
  exact fun before point fault _ => inadmissible?_eq_some_iff ..

structure Recoverable (processCount : Nat) (traces : List Trace) : Prop where
  inRun : ∀ trace ∈ traces, trace.process.val ≤ processCount
  sendersInRun : ∀ trace ∈ traces, ∀ message ∈ History.deliveries trace.entries,
    message.sender.val ≤ processCount
  sentOnce : (sent (scan traces)).Nodup

theorem nodup_sent_iff (points : List ScanPoint) :
    (sent points).Nodup ↔ ∀ before point message, before ++ [point] <+: points →
      point.sent? = some message → message ∉ sent before := by
  induction points using List.reverseRecOn with
  | nil => simp [sent]
  | append_singleton points last ih =>
    have both : (sent (points ++ [last])).Nodup ↔
        (sent points).Nodup ∧ ∀ message, last.sent? = some message → message ∉ sent points := by
      have last_sent : sent [last] = last.sent?.toList := by
        cases here : last.sent? <;> simp [sent, here]
      rw [sent_append, last_sent]
      cases last.sent? with
      | none => simp
      | some message => simp [← List.concat_eq_append, List.nodup_concat, and_comm]
    simp only [both, ih, List.prefix_concat_iff]
    constructor
    next =>
      rintro ⟨earlier, here⟩ before point message (same | inside) found
      next =>
        obtain ⟨rfl, rfl⟩ := List.append_singleton_inj.1 same
        exact here message found
      next => exact earlier before point message inside found
    next =>
      intro all
      exact ⟨fun before point message inside => all before point message (.inr inside),
        fun message => all points last message (.inl rfl)⟩

theorem exists_before {points : List ScanPoint} {point : ScanPoint} (member : point ∈ points) :
    ∃ before, before ++ [point] <+: points := by
  obtain ⟨before, rest, rfl⟩ := List.append_of_mem member
  exact ⟨before, rest, by simp⟩

theorem faultFree_inadmissible_iff (processCount : Nat) (traces : List Trace) :
    FaultFree (Inadmissible processCount) (scan traces) ↔ Recoverable processCount traces := by
  constructor
  next =>
    intro free
    refine ⟨fun trace member => ?_, fun trace member message delivered => ?_, ?_⟩
    next =>
      obtain ⟨before, inside⟩ := exists_before ((mem_scan_whole traces trace).2 member)
      exact Nat.le_of_not_lt fun outside => free before _ _ inside (.unknownLog trace outside)
    next =>
      obtain ⟨line, entry⟩ := (History.mem_deliveries_iff ..).1 delivered
      obtain ⟨before, inside⟩ := exists_before ((mem_scan_entry traces trace _).2 ⟨member, entry⟩)
      exact Nat.le_of_not_lt fun outside =>
        free before _ _ inside (.unknownSender trace line message outside)
    next =>
      rw [nodup_sent_iff]
      rintro before (trace | ⟨trace, line, seq | delivered⟩) message inside found repeated
      next => cases found
      next =>
        cases found
        exact free before _ _ inside (.repeatedBroadcast trace line seq repeated)
      next => cases found
  next =>
    intro recoverable before point fault inside wrong
    have member : point ∈ scan traces := inside.subset (by simp)
    cases wrong with
    | unknownLog trace outside =>
      have inRun := recoverable.inRun trace ((mem_scan_whole ..).1 member)
      omega
    | unknownSender trace line message outside =>
      obtain ⟨traceMember, entry⟩ := (mem_scan_entry ..).1 member
      have inRun := recoverable.sendersInRun trace traceMember message
        ((History.mem_deliveries_iff ..).2 ⟨line, entry⟩)
      omega
    | repeatedBroadcast trace line seq repeated =>
      exact (nodup_sent_iff _).1 recoverable.sentOnce before _ _ inside rfl repeated

theorem recoverFault?_eq_none_iff_recoverable (config : Dependencies) (traces : List Trace) :
    recoverFault? config traces = none ↔ Recoverable config.processCount traces :=
  (recoverFault?_eq_none_iff_faultFree config traces).trans (faultFree_inadmissible_iff ..)

theorem recover_eq_ok_iff (config : Dependencies) (traces : List Trace) (stamps : Stamps) :
    Stamps.recover config traces = .ok stamps ↔
      Recoverable config.processCount traces ∧ stampsOf config traces = stamps := by
  rw [recover_eq_settle, settle_eq_ok_iff, Option.map_eq_none_iff,
    recoverFault?_eq_none_iff_recoverable]

theorem Recoverable.getElem?_stampsOf {config : Dependencies} {traces : List Trace}
    (recoverable : Recoverable config.processCount traces) (message : Message)
    (stamp : VectorClock) :
    (stampsOf config traces)[message]? = some stamp ↔
      ∃ trace ∈ traces, trace.process = message.sender ∧
        Stamped config trace.process trace.entries message.seq stamp :=
  Causal.getElem?_stampsOf config traces
    ((recoverFault?_eq_none_iff_recoverable config traces).2 recoverable) message stamp

end BroadcastAudit.Causal
