import BroadcastAudit.Proofs.Fifo.Accepted
import BroadcastAudit.Proofs.Links.Logs

set_option autoImplicit false

namespace BroadcastAudit

open Replays

-- The numbers from 1 to a count. A sender that nothing was delivered from has no set at all.
def seqsUpTo : Nat → Option (Std.ExtTreeSet Nat)
  | 0 => none
  | count + 1 => some (.ofList (List.range' 1 (count + 1)))

theorem insert_seqsUpTo (count : Nat) :
    some (((seqsUpTo count).getD ∅).insert (count + 1)) = seqsUpTo (count + 1) := by
  have next : List.range' 1 (count + 1) = List.range' 1 count ++ [count + 1] := by
    rw [List.range'_concat, Nat.one_mul, Nat.add_comm 1 count]
  rw [seqsUpTo, next, LogFile.ofList_append_singleton]
  cases count <;> rfl

theorem Fifo.InOrder.bySender_ofMessages {entries : List LogEntry} (h : InOrder entries)
    (sender : ProcessId) :
    (MessageSets.ofMessages (History.deliveries entries)).bySender[sender]? =
      seqsUpTo (History.deliveriesFrom sender entries).length := by
  induction entries using List.reverseRecOn generalizing sender with
  | nil => rfl
  | append_singleton read entry ih =>
    obtain ⟨before, expected⟩ := (inOrder_append_singleton ..).1 h
    obtain ⟨line, seq | message⟩ := entry
    next => simpa using ih before sender
    next =>
      have seq : message.seq = (History.deliveriesFrom message.sender read).length + 1 := expected
      rw [History.deliveries_append, History.deliveries_deliver, History.deliveries_nil,
        MessageSets.ofMessages_append_singleton, MessageSets.bySender_insert,
        History.deliveriesFrom_append, History.deliveriesFrom_deliver, History.deliveriesFrom_nil]
      split
      next same =>
        subst same
        rw [MessageSets.seqsOf, ih before, seq, insert_seqsUpTo, List.length_append,
          List.length_singleton]
      next => simpa using ih before sender

theorem Fifo.InOrder.size_ofMessages {entries : List LogEntry} (h : InOrder entries)
    (process : ProcessId) :
    (MessageSets.ofMessages (History.deliveries entries)).size =
      (check process entries).delivered := by
  have counted := (check_tells process entries).delivered
  rw [counted, h.inOrderPart_eq,
    MessageSets.size_eq_card (MessageSets.contains_ofMessages (History.deliveries entries)),
    List.toFinset_card_of_nodup h.nodup_deliveries]

namespace LogFile

variable {log : LogFile} {entries : List LogEntry}

/-- A log of deliveries without a FIFO violation is that of a receiver. The sets that are read from
it hold the first numbers of each sender, as many as there are deliveries. -/
theorem readDelivered_of_fifo (process : ProcessId)
    (delivers : ∀ line ∈ log.lines, ∃ message, line.Tells (.deliver message)) :
    ∃ entries, log.parse = .ok entries ∧
      ((Fifo.check process entries).violation = none →
        ∃ delivered, log.readDelivered = .ok delivered ∧
          (∀ sender, delivered.bySender[sender]? =
            seqsUpTo (History.deliveriesFrom sender entries).length) ∧
          delivered.size = (Fifo.check process entries).delivered) := by
  have wellFormed : ∀ line ∈ log.lines, ¬ line.Malformed := by
    intro line member
    obtain ⟨message, tells⟩ := delivers line member
    exact fun malformed => malformed ⟨_, tells⟩
  obtain ⟨entries, parsed⟩ := log.exists_parse_iff.2 wellFormed
  refine ⟨entries, parsed, fun accepted => ?_⟩
  have inOrder := (Fifo.violation_check_eq_none_iff process entries).1 accepted
  have messages := deliveredMessages_eq_deliveries parsed
  have once : log.DeliversOnce :=
    ⟨delivers, log.nodup_deliveredMessages_iff.1 (messages ▸ inOrder.nodup_deliveries)⟩
  refine ⟨_, (log.readDelivered_eq_ok_iff _).2 ⟨once, rfl⟩, fun sender => ?_, ?_⟩
  next => rw [messages, inOrder.bySender_ofMessages]
  next => rw [messages, inOrder.size_ofMessages process]

def orderedLog : LogFile :=
  ⟨"1.output", "d 2 1\n d 3 01\nd 2 2\t\n"⟩

theorem readDelivered_of_fifo_ordered :
    (∀ line ∈ orderedLog.lines, ∃ message, line.Tells (.deliver message)) ∧
      ∃ entries delivered, orderedLog.parse = .ok entries ∧
        (Fifo.check (.ofIndex 0) entries).violation = none ∧
          orderedLog.readDelivered = .ok delivered ∧
            delivered.bySender[ProcessId.ofIndex 0]? = none ∧
              delivered.bySender[ProcessId.ofIndex 1]? = some (.ofList [1, 2]) ∧
                delivered.size = 3 := by
  have lines : orderedLog.lines =
      [⟨1, 0, "d 2 1".toList⟩, ⟨2, 6, " d 3 01".toList⟩, ⟨3, 14, "d 2 2".toList⟩] := by
    decide +kernel
  have delivers : ∀ line ∈ orderedLog.lines, ∃ message, line.Tells (.deliver message) := by
    simp only [lines, List.forall_mem_cons, List.not_mem_nil, false_implies, implies_true, and_true]
    exact ⟨⟨⟨.ofIndex 1, 1⟩, by decide +kernel⟩, ⟨⟨.ofIndex 2, 1⟩, by decide +kernel⟩,
      ⟨⟨.ofIndex 1, 2⟩, by decide +kernel⟩⟩
  have parsed : orderedLog.parse =
      .ok [⟨1, .deliver ⟨.ofIndex 1, 1⟩⟩, ⟨2, .deliver ⟨.ofIndex 2, 1⟩⟩,
        ⟨3, .deliver ⟨.ofIndex 1, 2⟩⟩] := by
    decide +kernel
  obtain ⟨entries, same, reads⟩ := readDelivered_of_fifo (.ofIndex 0) delivers
  rw [parsed, Except.ok.injEq] at same
  subst same
  obtain ⟨delivered, read, sets, size⟩ := reads (by decide)
  exact ⟨delivers, _, delivered, parsed, by decide, read, sets _, sets _, size⟩

end LogFile

end BroadcastAudit
