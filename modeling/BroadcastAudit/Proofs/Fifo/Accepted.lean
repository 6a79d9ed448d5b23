import BroadcastAudit.Fifo.Report
import BroadcastAudit.Proofs.Fifo.Disorder
import Mathlib.Data.List.Nodup
import Mathlib.Data.Nat.Find

set_option autoImplicit false

namespace BroadcastAudit.Fifo

def inOrderPart (entries : List LogEntry) : List LogEntry :=
  entries.take (Nat.findGreatest (fun count => InOrder (entries.take count)) entries.length)

theorem inOrderPart_append {read rest : List LogEntry} (inOrder : InOrder read)
    (stops : ∀ entry, [entry] <+: rest → ¬ InOrder (read ++ [entry])) :
    inOrderPart (read ++ rest) = read := by
  have longest : Nat.findGreatest (fun count => InOrder ((read ++ rest).take count))
      (read ++ rest).length = read.length := by
    refine Nat.findGreatest_eq_iff.2 ⟨by simp, fun _ => by simpa using inOrder, ?_⟩
    intro count more within whole
    cases rest with
    | nil => simp at within; omega
    | cons entry rest =>
      have follows : read ++ [entry] <+: (read ++ entry :: rest).take count :=
        List.prefix_take_iff.2 ⟨⟨rest, by simp⟩, by rwa [List.length_append]⟩
      exact stops entry ⟨rest, rfl⟩ (whole.of_isPrefix follows)
  rw [inOrderPart, longest, List.take_left]

theorem InOrder.inOrderPart_eq {entries : List LogEntry} (h : InOrder entries) :
    inOrderPart entries = entries := by
  have ends : ∀ entry, [entry] <+: [] → ¬ InOrder (entries ++ [entry]) := by simp
  simpa using inOrderPart_append h ends

structure Outcome.Tells (outcome : Outcome) (process : ProcessId) (entries : List LogEntry) :
    Prop where
  inOrder : outcome.violation = none ↔ InOrder entries
  first : ∀ violation, outcome.violation = some violation →
    violation.process = process ∧
      ∃ entry, inOrderPart entries ++ [entry] <+: entries ∧ violation.line = entry.line
  delivered : outcome.delivered = (History.deliveries (inOrderPart entries)).length

theorem LeavesOrder.inOrderPart_eq {entries read : List LogEntry} {entry : LogEntry}
    (h : LeavesOrder entries read entry) : inOrderPart entries = read := by
  obtain ⟨rest, rfl⟩ := h.reads
  rw [List.append_assoc]
  refine inOrderPart_append h.before fun other first => ?_
  obtain ⟨_, eq⟩ := first
  cases eq
  exact h.here

theorem check_tells (process : ProcessId) (entries : List LogEntry) :
    (check process entries).Tells process entries := by
  by_cases inOrder : InOrder entries
  next =>
    rw [inOrder.check_eq process]
    exact ⟨by simpa using inOrder, by simp, by rw [inOrder.inOrderPart_eq]⟩
  next =>
    obtain ⟨read, entry, leaves⟩ := exists_leavesOrder inOrder
    have part := leaves.inOrderPart_eq
    rw [leaves.check_eq process]
    constructor
    next => simpa using inOrder
    next =>
      rintro _ ⟨⟩
      exact ⟨rfl, entry, part.symm ▸ leaves.reads, rfl⟩
    next => rw [part]

theorem violation_check_eq_none_iff (process : ProcessId) (entries : List LogEntry) :
    (check process entries).violation = none ↔ InOrder entries :=
  (check_tells process entries).inOrder

theorem Report.isCorrect_ofTraces_iff (traces : List Trace) :
    (ofTraces traces).isCorrect = true ↔ ∀ trace ∈ traces, InOrder trace.entries := by
  simp [isCorrect_iff, ofTraces, FileResult.ofTrace, violation_check_eq_none_iff]

theorem InOrder.of_read {entries read : List LogEntry} {entry : LogEntry} (h : InOrder entries)
    (reads : read ++ [entry] <+: entries) : InOrder read :=
  h.of_isPrefix (History.isPrefix_of_read reads)

theorem InOrder.mem_deliveries_iff {read : List LogEntry} (h : InOrder read) (message : Message) :
    message ∈ History.deliveries read ↔
      1 ≤ message.seq ∧ message.seq ≤ (History.deliveriesFrom message.sender read).length := by
  rw [← (h.2 message.sender).mem_iff, History.mem_deliveriesFrom]

theorem InOrder.mem_broadcasts_iff {read : List LogEntry} (h : InOrder read) (seq : Nat) :
    seq ∈ History.broadcasts read ↔ 1 ≤ seq ∧ seq ≤ (History.broadcasts read).length :=
  h.1.mem_iff seq

theorem InOrder.nodup_deliveries {entries : List LogEntry} (h : InOrder entries) :
    (History.deliveries entries).Nodup := by
  induction entries using List.reverseRecOn with
  | nil => exact .nil
  | append_singleton read entry ih =>
    obtain ⟨before, expected⟩ := (inOrder_append_singleton ..).1 h
    obtain ⟨line, seq | message⟩ := entry
    next => simpa using ih before
    next =>
      have fresh : message ∉ History.deliveries read := by
        rw [before.mem_deliveries_iff]
        simp only [Expected] at expected
        omega
      rw [History.deliveries_append]
      exact List.Nodup.append (ih before) (List.nodup_singleton _) (by simpa using fresh)

theorem InOrder.delivery_unique {entries read other : List LogEntry} (h : InOrder entries)
    {line otherLine : Nat} {message : Message}
    (reads : read ++ [⟨line, .deliver message⟩] <+: entries)
    (otherReads : other ++ [⟨otherLine, .deliver message⟩] <+: entries) :
    read = other ∧ line = otherLine := by
  -- After a first delivery of the message its number is no longer expected.
  have notBefore {first second : List LogEntry} {firstLine secondLine : Nat}
      (later : second ++ [⟨secondLine, .deliver message⟩] <+: entries) :
      ¬ first ++ [⟨firstLine, .deliver message⟩] <+: second := by
    intro inside
    have delivered := History.mem_deliveries_of_read inside
    have expected : message.seq = _ := h.expected later
    rw [(h.of_read later).mem_deliveries_iff] at delivered
    omega
  obtain ⟨same, entry⟩ :=
    History.eq_of_reads reads otherReads (notBefore otherReads) (notBefore reads)
  exact ⟨same, congrArg LogEntry.line entry⟩

theorem InOrder.broadcast_mono {entries read later : List LogEntry} (h : InOrder entries)
    {line laterLine i j : Nat} (less : i < j)
    (broadcast : read ++ [⟨line, .broadcast i⟩] <+: entries)
    (laterBroadcast : later ++ [⟨laterLine, .broadcast j⟩] <+: entries) : read <+: later := by
  have reads := History.isPrefix_of_read broadcast
  have laterReads := History.isPrefix_of_read laterBroadcast
  rcases List.prefix_or_prefix_of_prefix reads laterReads with before | after
  next => exact before
  next =>
    have first : i = (History.broadcasts read).length + 1 := h.expected broadcast
    have second : j = (History.broadcasts later).length + 1 := h.expected laterBroadcast
    obtain ⟨rest, rfl⟩ := after
    rw [History.broadcasts_append, List.length_append] at first
    omega

end BroadcastAudit.Fifo
