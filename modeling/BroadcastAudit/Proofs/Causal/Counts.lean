import BroadcastAudit.Proofs.Causal.Faultless

set_option autoImplicit false

namespace BroadcastAudit.Causal

theorem covers_iff_forall_message (observed required : VectorClock) :
    observed.Covers required ↔
      ∀ message : Message, 1 ≤ message.seq → message.seq ≤ required.slot message.sender →
        message.seq ≤ observed.slot message.sender := by
  constructor
  next =>
    intro covers message _ counted
    exact Nat.le_trans counted (covers message.sender)
  next =>
    intro all process
    by_cases empty : required.slot process = 0
    next => simp [empty]
    next =>
      have positive : 1 ≤ required.slot process := Nat.one_le_iff_ne_zero.2 empty
      exact all ⟨process, required.slot process⟩ positive (Nat.le_refl _)

theorem slot_observedAfter (processCount : Nat) (read : List LogEntry) {process : ProcessId}
    (inRun : process.val ≤ processCount) :
    (observedAfter processCount read).slot process =
      (History.deliveriesFrom process read).length := by
  rw [observedAfter, VectorClock.slot_ofSlots, if_pos inRun]

theorem slot_stampAfter (config : Dependencies) (process : ProcessId) (read : List LogEntry)
    {other : ProcessId} (inRun : other.val ≤ config.processCount) :
    (stampAfter config process read).slot other =
      if other = process then (History.broadcasts read).length
      else if config.Depends process other then (History.deliveriesFrom other read).length
      else 0 := by
  rw [stampAfter, VectorClock.slot_ofSlots, if_pos inRun, Function.update_apply]
  rfl

theorem le_slot_observedAfter_iff {processCount : Nat} {read : List LogEntry}
    (inOrder : Fifo.InOrder read) {message : Message} (inRun : message.sender.val ≤ processCount)
    (positive : 1 ≤ message.seq) :
    message.seq ≤ (observedAfter processCount read).slot message.sender ↔
      message ∈ History.deliveries read := by
  rw [slot_observedAfter _ _ inRun, inOrder.mem_deliveries_iff]
  exact (and_iff_right positive).symm

section Faultless

variable {config : Dependencies} {traces : List Trace}

theorem Faultless.inRun_of_isBroadcast (run : Faultless config.processCount traces)
    {message : Message} (sent : IsBroadcast traces message) :
    message.sender.val ≤ config.processCount := by
  obtain ⟨trace, member, sender, -⟩ := sent
  exact sender ▸ run.oneEach.inRun member

theorem isBroadcast_of_stamp {message : Message} {stamp : VectorClock}
    (found : (stampsOf config traces)[message]? = some stamp) : IsBroadcast traces message := by
  rw [← mem_stampsOf config, Std.ExtTreeMap.mem_iff_isSome_getElem?, found]
  rfl

theorem exists_stamp (config : Dependencies) {message : Message}
    (sent : IsBroadcast traces message) :
    ∃ stamp, (stampsOf config traces)[message]? = some stamp := by
  rwa [← mem_stampsOf config, Std.ExtTreeMap.mem_iff_isSome_getElem?, Option.isSome_iff_exists]
    at sent

theorem Faultless.isBroadcast_of_delivers (run : Faultless config.processCount traces)
    {earlier later : Message} (delivered : DeliversBeforeBroadcast traces earlier later) :
    IsBroadcast traces earlier := by
  obtain ⟨trace, member, -, read, line, broadcast, known⟩ :=
    (deliversBeforeBroadcast_iff ..).1 delivered
  have inTrace := History.mem_deliveries_of_isPrefix (History.isPrefix_of_read broadcast) known
  exact (run.noCreation trace member earlier inTrace).2

theorem Faultless.one_le_of_isBroadcast (run : Faultless config.processCount traces)
    {message : Message} (sent : IsBroadcast traces message) : 1 ≤ message.seq := by
  obtain ⟨trace, member, -, broadcast⟩ := sent
  exact (((run.inOrder trace member).mem_broadcasts_iff _).1 broadcast).1

theorem Faultless.slot_own (run : Faultless config.processCount traces) {message : Message}
    {stamp : VectorClock} (found : (stampsOf config traces)[message]? = some stamp) :
    stamp.slot message.sender + 1 = message.seq := by
  obtain ⟨sender, member, same, sent, line, broadcast, rfl⟩ :=
    (run.recoverable.getElem?_stampsOf ..).1 found
  have inRun := run.inRun_of_isBroadcast (isBroadcast_of_stamp found)
  have expected : message.seq = _ := (run.inOrder sender member).expected broadcast
  rw [same, slot_stampAfter _ _ _ inRun, if_pos rfl]
  exact expected.symm

theorem Faultless.le_slot_iff (run : Faultless config.processCount traces)
    {earlier later : Message} {stamp : VectorClock}
    (found : (stampsOf config traces)[later]? = some stamp)
    (other : earlier.sender ≠ later.sender) (positive : 1 ≤ earlier.seq) :
    earlier.seq ≤ stamp.slot earlier.sender ↔
      config.Depends later.sender earlier.sender ∧
        DeliversBeforeBroadcast traces earlier later := by
  rw [deliversBeforeBroadcast_iff]
  constructor
  next =>
    intro counted
    obtain ⟨trace, member, same, read, line, broadcast, rfl⟩ :=
      (run.recoverable.getElem?_stampsOf ..).1 found
    by_cases inRun : earlier.sender.val ≤ config.processCount
    next =>
      have inOrder := (run.inOrder trace member).of_read broadcast
      rw [same, slot_stampAfter _ _ _ inRun, if_neg other] at counted
      split at counted
      next depends =>
        exact ⟨depends, trace, member, same, read, line, broadcast,
          (inOrder.mem_deliveries_iff _).2 ⟨positive, counted⟩⟩
      next => omega
    next =>
      rw [stampAfter, VectorClock.slot_ofSlots, if_neg inRun] at counted
      omega
  next =>
    rintro ⟨depends, trace, member, same, read, line, broadcast, delivered⟩
    have stamped : (stampsOf config traces)[later]? = some (stampAfter config trace.process read) :=
      (run.recoverable.getElem?_stampsOf ..).2 ⟨trace, member, same, read, line, broadcast, rfl⟩
    have inRun := (Dependencies.le_processCount_of_depends depends).2
    have inOrder := (run.inOrder trace member).of_read broadcast
    rw [found, Option.some.injEq] at stamped
    rw [stamped, same, slot_stampAfter _ _ _ inRun, if_neg other, if_pos depends]
    exact ((inOrder.mem_deliveries_iff _).1 delivered).2

end Faultless

end BroadcastAudit.Causal
