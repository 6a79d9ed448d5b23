import BroadcastAudit.Proofs.Causal.Cycles

set_option autoImplicit false

namespace BroadcastAudit.Causal

def FullyDependent (config : Dependencies) : Prop :=
  ∀ process ∈ ProcessId.all config.processCount, ∀ sender ∈ ProcessId.all config.processCount,
    process ≠ sender → config.Depends process sender

instance (config : Dependencies) : Decidable (FullyDependent config) :=
  inferInstanceAs (Decidable (∀ process ∈ ProcessId.all config.processCount, _))

section Faultless

variable {config : Dependencies} {traces : List Trace}

theorem Faultless.delivers_of_precedes (run : Faultless config.processCount traces)
    (past : PastDelivered config traces) {earlier later : Message}
    (h : Precedes config traces earlier later) (other : earlier.sender ≠ later.sender) :
    DeliversBeforeBroadcast traces earlier later := by
  induction h with
  | single step =>
    cases step with
    | sameSender => exact absurd rfl other
    | dependency _ _ _ _ _ delivered => exact delivered
  | tail chain step ih =>
    rw [deliversBeforeBroadcast_iff]
    cases step with
    | sameSender sender i j less sent laterSent =>
      obtain ⟨trace, member, same, read, line, broadcast, known⟩ :=
        (deliversBeforeBroadcast_iff ..).1 (ih other)
      obtain ⟨trace', member', same', laterBroadcast⟩ := laterSent
      obtain rfl := run.oneEach.unique member' member (same'.trans same.symm)
      obtain ⟨later, laterLine, laterReads⟩ := History.exists_read_broadcast laterBroadcast
      -- What was delivered before one broadcast was delivered before the next.
      have grows := (run.inOrder trace' member).broadcast_mono less broadcast laterReads
      exact ⟨trace', member, same, later, laterLine, laterReads,
        History.mem_deliveries_of_isPrefix grows known⟩
    | dependency middle later _ _ _ delivered =>
      obtain ⟨trace, member, same, read, line, broadcast, known⟩ :=
        (deliversBeforeBroadcast_iff ..).1 delivered
      obtain ⟨before, place, inside⟩ := History.exists_read_delivery known
      have reads := inside.trans (History.isPrefix_of_read broadcast)
      -- The chain up to `middle` is in the past of a message that this sender had delivered.
      have already := past trace member before place _ reads _ chain
      exact ⟨trace, member, same, read, line, broadcast,
        History.mem_deliveries_of_isPrefix (History.isPrefix_of_read inside) already⟩

theorem Faultless.precedes_iff_le_slot (run : Faultless config.processCount traces)
    (full : FullyDependent config) (past : PastDelivered config traces) {earlier later : Message}
    (sent : IsBroadcast traces earlier) {stamp : VectorClock}
    (found : (stampsOf config traces)[later]? = some stamp) :
    Precedes config traces earlier later ↔ earlier.seq ≤ stamp.slot earlier.sender := by
  have laterSent := isBroadcast_of_stamp found
  have positive := run.one_le_of_isBroadcast sent
  by_cases same : earlier.sender = later.sender
  next =>
    -- The own slot counts broadcasts, so only the absence of cycles tells what precedes.
    have own := run.slot_own found
    obtain ⟨sender, i⟩ := earlier
    obtain ⟨_, j⟩ := later
    cases same
    constructor
    next =>
      intro precedes
      by_contra beyond
      simp only at beyond own
      rcases Nat.lt_or_eq_of_le (show j ≤ i by omega) with less | rfl
      next =>
        have back : Precedes config traces ⟨sender, j⟩ ⟨sender, i⟩ :=
          .single (.sameSender sender j i less laterSent sent)
        exact run.not_precedes_self past _ (back.trans precedes)
      next => exact run.not_precedes_self past _ precedes
    next =>
      intro counted
      simp only at counted own
      exact .single (.sameSender sender i j (by omega) sent laterSent)
  next =>
    rw [run.le_slot_iff found same positive]
    constructor
    next =>
      intro precedes
      have laterInRun := (ProcessId.mem_all ..).2 (run.inRun_of_isBroadcast laterSent)
      have inRun := (ProcessId.mem_all ..).2 (run.inRun_of_isBroadcast sent)
      exact ⟨full _ laterInRun _ inRun fun eq => same eq.symm,
        run.delivers_of_precedes past precedes same⟩
    next =>
      rintro ⟨depends, delivered⟩
      exact .single (.dependency earlier later same depends sent delivered)

theorem Faultless.isBroadcast_of_le_slot (run : Faultless config.processCount traces)
    {earlier later : Message} {stamp : VectorClock}
    (found : (stampsOf config traces)[later]? = some stamp) (positive : 1 ≤ earlier.seq)
    (counted : earlier.seq ≤ stamp.slot earlier.sender) : IsBroadcast traces earlier := by
  by_cases same : earlier.sender = later.sender
  next =>
    have own := run.slot_own found
    obtain ⟨trace, member, sender, broadcast⟩ := isBroadcast_of_stamp found
    refine ⟨trace, member, sender.trans same.symm, ?_⟩
    rw [(run.inOrder trace member).mem_broadcasts_iff] at broadcast ⊢
    rw [same] at counted
    omega
  next =>
    exact run.isBroadcast_of_delivers ((run.le_slot_iff found same positive).1 counted).2

theorem Faultless.order_of_precedes (run : Faultless config.processCount traces)
    (full : FullyDependent config) (past : PastDelivered config traces) {earlier later : Message}
    {before after : VectorClock} (found : (stampsOf config traces)[earlier]? = some before)
    (laterFound : (stampsOf config traces)[later]? = some after)
    (precedes : Precedes config traces earlier later) : before.order after = .ok .before := by
  have sent := isBroadcast_of_stamp found
  have sized := sized_stampsOf config traces
  rw [VectorClock.order_eq_before_iff]
  refine ⟨(sized _ _ found).trans (sized _ _ laterFound).symm, ?_, fun covers => ?_⟩
  next =>
    rw [covers_iff_forall_message]
    intro message positive counted
    have messageSent := run.isBroadcast_of_le_slot found positive counted
    have first := (run.precedes_iff_le_slot full past messageSent found).2 counted
    exact (run.precedes_iff_le_slot full past messageSent laterFound).1 (first.trans precedes)
  next =>
    have counted := (run.precedes_iff_le_slot full past sent laterFound).1 precedes
    have own := run.slot_own found
    have slot := covers earlier.sender
    omega

end Faultless

/-- Where everybody depends on everybody and nothing is flagged, a message precedes another if and
only if the other's stamp counts it, and then its own stamp is before the other's. -/
theorem precedes_iff_counted {config : Dependencies} {traces : List Trace} {report : Report}
    (full : FullyDependent config) (oneEach : OneTraceEach config.processCount traces)
    (fifo : ∀ trace ∈ traces, (Fifo.check trace.process trace.entries).violation = none)
    (checked : check config traces = .ok report) (correct : report.verdict = .correct) :
    ∃ stamps, Stamps.recover config traces = .ok stamps ∧
      ∀ earlier later, IsBroadcast traces earlier → IsBroadcast traces later →
        ∃ before after count,
          stamps[earlier]? = some before ∧ stamps[later]? = some after ∧
            after.get earlier.sender = .ok count ∧
              (Precedes config traces earlier later ↔ earlier.seq ≤ count) ∧
                (Precedes config traces earlier later → before.order after = .ok .before) := by
  obtain ⟨run, rfl⟩ := faultless_of_check oneEach fifo checked
  have past : PastDelivered config traces := run.verdict_eq_correct_iff.1 correct
  refine ⟨stampsOf config traces, run.recover_eq_ok, fun earlier later sent laterSent => ?_⟩
  obtain ⟨before, found⟩ := exists_stamp config sent
  obtain ⟨after, laterFound⟩ := exists_stamp config laterSent
  have inRun : earlier.sender.val ≤ after.size := by
    rw [sized_stampsOf config traces _ _ laterFound]
    exact run.inRun_of_isBroadcast sent
  exact ⟨before, after, after.slot earlier.sender, found, laterFound, after.get_eq_slot _ inRun,
    run.precedes_iff_le_slot full past sent laterFound,
    run.order_of_precedes full past found laterFound⟩

def answeredTraces : List Trace :=
  [⟨.ofIndex 0, "1.output", "1.output",
      [⟨1, .broadcast 1⟩, ⟨2, .deliver ⟨.ofIndex 0, 1⟩⟩, ⟨3, .deliver ⟨.ofIndex 1, 1⟩⟩,
        ⟨4, .broadcast 2⟩]⟩,
    ⟨.ofIndex 1, "2.output", "2.output",
      [⟨1, .deliver ⟨.ofIndex 0, 1⟩⟩, ⟨2, .broadcast 1⟩]⟩,
    ⟨.ofIndex 2, "3.output", "3.output",
      [⟨1, .deliver ⟨.ofIndex 0, 1⟩⟩, ⟨2, .deliver ⟨.ofIndex 1, 1⟩⟩,
        ⟨3, .deliver ⟨.ofIndex 0, 2⟩⟩, ⟨4, .broadcast 1⟩]⟩]

def answeredConfig : Dependencies :=
  .ofNumbers 2 [[2, 3], [1, 3], [1, 2]]

theorem precedes_iff_counted_answered :
    FullyDependent answeredConfig ∧ OneTraceEach answeredConfig.processCount answeredTraces ∧
      (∀ trace ∈ answeredTraces, (Fifo.check trace.process trace.entries).violation = none) ∧
        check answeredConfig answeredTraces = .ok ⟨[], 6⟩ ∧
          ∃ stamps, Stamps.recover answeredConfig answeredTraces = .ok stamps ∧
            ∀ earlier later, IsBroadcast answeredTraces earlier →
              IsBroadcast answeredTraces later →
                ∃ before after count,
                  stamps[earlier]? = some before ∧ stamps[later]? = some after ∧
                    after.get earlier.sender = .ok count ∧
                      (Precedes answeredConfig answeredTraces earlier later ↔
                        earlier.seq ≤ count) ∧
                      (Precedes answeredConfig answeredTraces earlier later →
                        before.order after = .ok .before) := by
  have full : FullyDependent answeredConfig := by decide
  have oneEach : OneTraceEach answeredConfig.processCount answeredTraces := by decide
  have fifo : ∀ trace ∈ answeredTraces,
      (Fifo.check trace.process trace.entries).violation = none := by decide
  have checked : check answeredConfig answeredTraces = .ok ⟨[], 6⟩ := by decide +kernel
  exact ⟨full, oneEach, fifo, checked, precedes_iff_counted full oneEach fifo checked rfl⟩

end BroadcastAudit.Causal
