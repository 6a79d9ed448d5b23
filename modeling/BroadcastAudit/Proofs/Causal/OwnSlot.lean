import BroadcastAudit.Proofs.Causal.Gaps

set_option autoImplicit false

namespace BroadcastAudit.Causal

def Independent (config : Dependencies) : Prop :=
  ∀ process sender, config.Depends process sender → sender = process

instance (config : Dependencies) : Decidable (Independent config) :=
  decidable_of_iff' _ (config.forall_depends_iff _)

section Faultless

variable {config : Dependencies} {traces : List Trace}

theorem Faultless.depends_of_slot (run : Faultless config.processCount traces) {message : Message}
    {stamp : VectorClock} (found : (stampsOf config traces)[message]? = some stamp)
    {other : ProcessId} (apart : other ≠ message.sender) (counted : 0 < stamp.slot other) :
    config.Depends message.sender other := by
  let first : Message := ⟨other, 1⟩
  have known : config.Depends message.sender first.sender ∧
      DeliversBeforeBroadcast traces first message := by
    rw [← run.le_slot_iff found apart (Nat.le_refl 1)]
    exact counted
  exact known.1

theorem Faultless.exceeds_other_slot (run : Faultless config.processCount traces) {trace : Trace}
    (member : trace ∈ traces) {read : List LogEntry} {line : Nat} {message : Message}
    (reads : read ++ [⟨line, .deliver message⟩] <+: trace.entries) {required : VectorClock}
    (found : (stampsOf config traces)[message]? = some required) {other : ProcessId}
    (exceeds : required.ExceedsAt (observedAfter config.processCount read) other) :
    other ≠ message.sender ∧ config.Depends message.sender other := by
  have sameSize := (sized_stampsOf config traces).eq_observedAfter found read
  rw [VectorClock.exceedsAt_iff sameSize] at exceeds
  have apart : other ≠ message.sender := by
    intro same
    have own := run.slot_own found
    have received := run.slot_sender_observed member reads
    rw [same] at exceeds
    omega
  exact ⟨apart, run.depends_of_slot found apart (by omega)⟩

theorem Faultless.flags_iff_exceeds (run : Faultless config.processCount traces) {trace : Trace}
    (member : trace ∈ traces) {read : List LogEntry} {line : Nat} {message : Message}
    (reads : read ++ [⟨line, .deliver message⟩] <+: trace.entries) {required : VectorClock}
    (found : (stampsOf config traces)[message]? = some required) :
    (reportOf config traces).Flags trace.process line message ↔
      ∃ other, other ≠ message.sender ∧
        required.ExceedsAt (observedAfter config.processCount read) other := by
  have sameSize := (sized_stampsOf config traces).eq_observedAfter found read
  have uncovered := not_congr (run.covers_iff member reads found)
  rw [not_not, VectorClock.not_covers_iff sameSize] at uncovered
  rw [run.flags_iff_misses member reads, ← uncovered]
  apply exists_congr
  intro other
  exact (and_iff_right_of_imp fun exceeds =>
    (run.exceeds_other_slot member reads found exceeds).1).symm

theorem Faultless.get_own (run : Faultless config.processCount traces) {message : Message}
    {stamp : VectorClock} (found : (stampsOf config traces)[message]? = some stamp) :
    stamp.get message.sender = .ok (message.seq - 1) := by
  have own := run.slot_own found
  have inRun : message.sender.val ≤ stamp.size := by
    rw [sized_stampsOf config traces _ _ found]
    exact run.inRun_of_isBroadcast (isBroadcast_of_stamp found)
  rw [stamp.get_eq_slot _ inRun, ← own]
  rfl

theorem Faultless.get_sender_observed (run : Faultless config.processCount traces) {trace : Trace}
    (member : trace ∈ traces) {read : List LogEntry} {line : Nat} {message : Message}
    (reads : read ++ [⟨line, .deliver message⟩] <+: trace.entries) :
    (observedAfter config.processCount read).get message.sender = .ok (message.seq - 1) := by
  have received := run.slot_sender_observed member reads
  have delivered := History.mem_deliveries_of_read reads
  have inRun : message.sender.val ≤ (observedAfter config.processCount read).size := by
    rw [observedAfter, VectorClock.size_ofSlots]
    exact (run.noCreation trace member message delivered).1
  rw [VectorClock.get_eq_slot _ _ inRun, ← received]
  rfl

theorem Faultless.violation_exceeds (run : Faultless config.processCount traces)
    {violation : Violation} (found : violation ∈ (reportOf config traces).violations) :
    violation.required.get violation.message.sender = .ok (violation.message.seq - 1) ∧
      violation.observed.get violation.message.sender = .ok (violation.message.seq - 1) ∧
        ∃ other, other ≠ violation.message.sender ∧
          config.Depends violation.message.sender other ∧
            violation.required.ExceedsAt violation.observed other := by
  obtain ⟨trace, member, -, stamped, read, reads, observed, uncovered⟩ :=
    (mem_violations_reportOf ..).1 found
  rw [observed] at uncovered ⊢
  have sameSize := (sized_stampsOf config traces).eq_observedAfter stamped read
  obtain ⟨other, exceeds⟩ := (VectorClock.not_covers_iff sameSize).1 uncovered
  have elsewhere := run.exceeds_other_slot member reads stamped exceeds
  exact ⟨run.get_own stamped, run.get_sender_observed member reads, other, elsewhere.1,
    elsewhere.2, exceeds⟩

theorem Faultless.correct_of_independent (run : Faultless config.processCount traces)
    (independent : Independent config) : (reportOf config traces).verdict = .correct := by
  rw [Report.verdict_eq_correct_iff_nil, List.eq_nil_iff_forall_not_mem]
  intro violation found
  obtain ⟨-, -, other, apart, depends, -⟩ := run.violation_exceeds found
  exact apart (independent _ other depends)

end Faultless

/-- Both clocks agree at the slot of the sender whenever a message is delivered, so that only other
slots decide, and none can where nobody depends on anybody else. -/
theorem own_slots_agree {config : Dependencies} {traces : List Trace} {report : Report}
    (oneEach : OneTraceEach config.processCount traces)
    (fifo : ∀ trace ∈ traces, (Fifo.check trace.process trace.entries).violation = none)
    (checked : check config traces = .ok report) :
    (∃ stamps, Stamps.recover config traces = .ok stamps ∧
      ∀ trace ∈ traces, ∀ read line message,
        read ++ [⟨line, .deliver message⟩] <+: trace.entries →
          1 ≤ message.seq ∧
            ∃ required receiving, stamps[message]? = some required ∧
              read.foldlM (Receiving.step config stamps trace) (.start config.processCount) =
                .ok receiving ∧
              required.get message.sender = .ok (message.seq - 1) ∧
              receiving.observed.get message.sender = .ok (message.seq - 1) ∧
              (report.Flags trace.process line message ↔
                ∃ other, other ≠ message.sender ∧
                  required.ExceedsAt receiving.observed other)) ∧
      (∀ violation ∈ report.violations,
        violation.required.get violation.message.sender = .ok (violation.message.seq - 1) ∧
          violation.observed.get violation.message.sender = .ok (violation.message.seq - 1) ∧
            ∃ other, other ≠ violation.message.sender ∧
              config.Depends violation.message.sender other ∧
                violation.required.ExceedsAt violation.observed other) ∧
      (Independent config → report.verdict = .correct) := by
  obtain ⟨run, rfl⟩ := faultless_of_check oneEach fifo checked
  refine ⟨⟨stampsOf config traces, run.recover_eq_ok, ?_⟩, fun violation => run.violation_exceeds,
    run.correct_of_independent⟩
  intro trace member read line message reads
  have delivered := History.mem_deliveries_of_read reads
  have sent := (run.noCreation trace member message delivered).2
  obtain ⟨required, found⟩ := exists_stamp config sent
  exact ⟨run.one_le_of_isBroadcast sent, required, _, found,
    run.noCreation.foldlM_step_eq_ok member (History.isPrefix_of_read reads), run.get_own found,
    run.get_sender_observed member reads, run.flags_iff_exceeds member reads found⟩

def selfConfig : Dependencies :=
  .ofNumbers 1 [[1], [2], [], [4]]

theorem own_slots_agree_crossed :
    OneTraceEach crossedConfig.processCount crossedTraces ∧
      (∀ trace ∈ crossedTraces, (Fifo.check trace.process trace.entries).violation = none) ∧
        check crossedConfig crossedTraces = .ok crossedReport ∧
          (∀ violation ∈ crossedReport.violations, ∃ other, other ≠ violation.message.sender ∧
            violation.required.ExceedsAt violation.observed other) ∧
          Independent selfConfig ∧ check selfConfig crossedTraces = .ok ⟨[], 6⟩ ∧
            (⟨[], 6⟩ : Report).verdict = .correct := by
  have oneEach : OneTraceEach crossedConfig.processCount crossedTraces := by decide
  have fifo : ∀ trace ∈ crossedTraces,
      (Fifo.check trace.process trace.entries).violation = none := by decide
  have checked : check crossedConfig crossedTraces = .ok crossedReport := by decide +kernel
  have selfEach : OneTraceEach selfConfig.processCount crossedTraces := by decide
  have own : check selfConfig crossedTraces = .ok ⟨[], 6⟩ := by decide +kernel
  have independent : Independent selfConfig := by decide
  refine ⟨oneEach, fifo, checked, fun violation found => ?_, independent, own,
    (own_slots_agree selfEach fifo own).2.2 independent⟩
  obtain ⟨-, -, other, apart, -, exceeds⟩ :=
    (own_slots_agree oneEach fifo checked).2.1 violation found
  exact ⟨other, apart, exceeds⟩

end BroadcastAudit.Causal
