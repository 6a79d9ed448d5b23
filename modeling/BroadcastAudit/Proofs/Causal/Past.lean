import BroadcastAudit.Proofs.Causal.Gaps

set_option autoImplicit false

namespace BroadcastAudit.Causal

def KnowsPast (config : Dependencies) (traces : List Trace) (read : List LogEntry)
    (message : Message) : Prop :=
  ∀ earlier, Precedes config traces earlier message → earlier ∈ History.deliveries read

def PastDelivered (config : Dependencies) (traces : List Trace) : Prop :=
  ∀ trace ∈ traces, ∀ read line message,
    read ++ [⟨line, .deliver message⟩] <+: trace.entries → KnowsPast config traces read message

section Faultless

variable {config : Dependencies} {traces : List Trace}

theorem Faultless.direct_delivered (run : Faultless config.processCount traces) {trace : Trace}
    (member : trace ∈ traces) {read : List LogEntry} {line : Nat} {earlier message : Message}
    (reads : read ++ [⟨line, .deliver message⟩] <+: trace.entries)
    (complete : ¬ Misses config traces read message)
    (direct : DirectlyPrecedes config traces earlier message) :
    earlier ∈ History.deliveries read := by
  cases direct with
  | sameSender sender i j less sent _ =>
    have inOrder := (run.inOrder trace member).of_read reads
    have positive : 1 ≤ i := run.one_le_of_isBroadcast sent
    have next : j = (History.deliveriesFrom sender read).length + 1 :=
      (run.inOrder trace member).expected reads
    rw [inOrder.mem_deliveries_iff]
    simp only
    omega
  | dependency _ _ other depends _ delivered =>
    by_contra missing
    exact complete ⟨earlier, other, depends, delivered, missing⟩

theorem Faultless.knowsPast_of_complete (run : Faultless config.processCount traces)
    {trace : Trace} (member : trace ∈ traces) {upTo : List LogEntry}
    (within : upTo <+: trace.entries)
    (complete : ∀ read line message, read ++ [⟨line, .deliver message⟩] <+: upTo →
      ¬ Misses config traces read message) (read : List LogEntry) (line : Nat) (message : Message)
    (reads : read ++ [⟨line, .deliver message⟩] <+: upTo) :
    KnowsPast config traces read message := by
  -- By the position of the delivery: a chain ends in a direct predecessor of the message, and that
  -- one was delivered at an earlier position, with all that is further down the chain.
  induction length : read.length using Nat.strongRecOn generalizing read line message with
  | _ length ih =>
    subst length
    intro earlier precedes
    have delivered {direct : Message} (step : DirectlyPrecedes config traces direct message) :
        direct ∈ History.deliveries read :=
      run.direct_delivered member (reads.trans within) (complete read line message reads) step
    cases precedes with
    | single step => exact delivered step
    | tail chain step =>
      obtain ⟨before, place, inside⟩ := History.exists_read_delivery (delivered step)
      have shorter : before.length < read.length := by
        have bound := inside.length_le
        rw [List.length_append] at bound
        exact bound
      have past := ih before.length shorter before place _
        (inside.trans (History.isPrefix_of_read reads)) rfl
      exact History.mem_deliveries_of_isPrefix (History.isPrefix_of_read inside)
        (past earlier chain)

theorem Faultless.not_misses_of_knowsPast (run : Faultless config.processCount traces)
    {read : List LogEntry} {message : Message} (past : KnowsPast config traces read message) :
    ¬ Misses config traces read message := by
  rintro ⟨earlier, other, depends, delivered, missing⟩
  have sent := run.isBroadcast_of_delivers delivered
  exact missing (past earlier (.single (.dependency earlier message other depends sent delivered)))

theorem Faultless.verdict_eq_correct_iff (run : Faultless config.processCount traces) :
    (reportOf config traces).verdict = .correct ↔ PastDelivered config traces := by
  rw [Report.verdict_eq_correct_iff_nil]
  constructor
  next =>
    intro none trace member
    refine run.knowsPast_of_complete member (List.prefix_refl _) ?_
    intro read line message reads
    rw [← run.flags_iff_misses member reads]
    rintro ⟨violation, found, -⟩
    simp [none] at found
  next =>
    intro past
    rw [List.eq_nil_iff_forall_not_mem]
    intro violation found
    obtain ⟨trace, member, process, -, read, reads, -⟩ := (mem_violations_reportOf ..).1 found
    have flagged : (reportOf config traces).Flags trace.process violation.line violation.message :=
      ⟨violation, found, process.symm, rfl, rfl⟩
    rw [run.flags_iff_misses member reads] at flagged
    exact run.not_misses_of_knowsPast (past trace member read _ _ reads) flagged

end Faultless

/-- Nothing is flagged up to some entry of a trace if and only if each delivery up to there comes
after the whole past of its message. -/
theorem unflagged_iff_knows_past {config : Dependencies} {traces : List Trace} {report : Report}
    (oneEach : OneTraceEach config.processCount traces)
    (fifo : ∀ trace ∈ traces, (Fifo.check trace.process trace.entries).violation = none)
    (checked : check config traces = .ok report) :
    (∀ trace ∈ traces, ∀ upTo, upTo <+: trace.entries →
      ((∀ read line message, read ++ [⟨line, .deliver message⟩] <+: upTo →
          ¬ report.Flags trace.process line message) ↔
        ∀ read line message, read ++ [⟨line, .deliver message⟩] <+: upTo →
          KnowsPast config traces read message)) ∧
      (report.verdict = .correct ↔ PastDelivered config traces) := by
  obtain ⟨run, rfl⟩ := faultless_of_check oneEach fifo checked
  refine ⟨fun trace member upTo within => ⟨fun unflagged => ?_, fun past => ?_⟩,
    run.verdict_eq_correct_iff⟩
  next =>
    refine run.knowsPast_of_complete member within fun read line message reads => ?_
    rw [← run.flags_iff_misses member (reads.trans within)]
    exact unflagged read line message reads
  next =>
    intro read line message reads
    rw [run.flags_iff_misses member (reads.trans within)]
    exact run.not_misses_of_knowsPast (past read line message reads)

theorem unflagged_iff_knows_past_crossed :
    OneTraceEach crossedConfig.processCount crossedTraces ∧
      (∀ trace ∈ crossedTraces, (Fifo.check trace.process trace.entries).violation = none) ∧
        check crossedConfig crossedTraces = .ok crossedReport ∧
          ¬ PastDelivered crossedConfig crossedTraces := by
  have oneEach : OneTraceEach crossedConfig.processCount crossedTraces := by decide
  have fifo : ∀ trace ∈ crossedTraces,
      (Fifo.check trace.process trace.entries).violation = none := by decide
  have checked : check crossedConfig crossedTraces = .ok crossedReport := by decide +kernel
  refine ⟨oneEach, fifo, checked, ?_⟩
  rw [← (unflagged_iff_knows_past oneEach fifo checked).2]
  decide

end BroadcastAudit.Causal
