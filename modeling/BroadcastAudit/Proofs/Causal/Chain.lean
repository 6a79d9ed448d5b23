import BroadcastAudit.Proofs.Causal.StampCounts
import BroadcastAudit.Proofs.ClockOrder

set_option autoImplicit false

namespace BroadcastAudit.Causal

section Later

variable (config : Dependencies) (process : ProcessId) {read later : List LogEntry}

theorem pastSlots_le_of_isPrefix (inside : read <+: later) (sender : ProcessId) :
    pastSlots config process read sender ≤ pastSlots config process later sender := by
  obtain ⟨rest, rfl⟩ := inside
  unfold pastSlots
  split
  next => simp
  next => exact Nat.le_refl 0

theorem stampAfter_covers_of_isPrefix (inside : read <+: later) :
    (stampAfter config process later).Covers (stampAfter config process read) := by
  have own : (History.broadcasts read).length ≤ (History.broadcasts later).length := by
    obtain ⟨rest, rfl⟩ := inside
    simp
  intro sender
  simp only [stampAfter, VectorClock.slot_ofSlots]
  split
  next =>
    -- The slots of the past and the own slot grow for different reasons.
    by_cases same : sender = process
    next => simpa [same] using own
    next => simpa [same] using pastSlots_le_of_isPrefix config process inside sender
  next => exact Nat.le_refl 0

theorem order_stampAfter (inRun : process.val ≤ config.processCount) {line seq : Nat}
    (inside : read ++ [⟨line, .broadcast seq⟩] <+: later) :
    (stampAfter config process read).order (stampAfter config process later) = .ok .before := by
  have before := History.isPrefix_of_read inside
  rw [VectorClock.order_eq_before_iff]
  refine ⟨?_, stampAfter_covers_of_isPrefix config process before, fun covers => ?_⟩
  next => rw [stampAfter, stampAfter, VectorClock.size_ofSlots, VectorClock.size_ofSlots]
  next =>
    have own := covers process
    rw [slot_stampAfter _ _ _ inRun, slot_stampAfter _ _ _ inRun, if_pos rfl, if_pos rfl] at own
    obtain ⟨rest, rfl⟩ := inside
    simp only [History.broadcasts_append, History.broadcasts_broadcast, List.length_append,
      List.length_cons] at own
    omega

end Later

section Recoverable

variable {config : Dependencies} {traces : List Trace} {trace : Trace}

theorem Recoverable.stamp_of_read (recoverable : Recoverable config.processCount traces)
    (member : trace ∈ traces) {read : List LogEntry} {line seq : Nat}
    (reads : read ++ [⟨line, .broadcast seq⟩] <+: trace.entries) :
    (stampsOf config traces)[(⟨trace.process, seq⟩ : Message)]? =
      some (stampAfter config trace.process read) :=
  (recoverable.getElem?_stampsOf ..).2 ⟨trace, member, rfl, read, line, reads, rfl⟩

theorem Recoverable.exists_order (recoverable : Recoverable config.processCount traces)
    (member : trace ∈ traces) {seq other : Nat} (sent : seq ∈ History.broadcasts trace.entries)
    (otherSent : other ∈ History.broadcasts trace.entries) (different : seq ≠ other) :
    ∃ stamp otherStamp order,
      (stampsOf config traces)[(⟨trace.process, seq⟩ : Message)]? = some stamp ∧
        (stampsOf config traces)[(⟨trace.process, other⟩ : Message)]? = some otherStamp ∧
          stamp.order otherStamp = .ok order ∧ (order = .before ∨ order = .after) := by
  obtain ⟨read, line, reads⟩ := History.exists_read_broadcast sent
  obtain ⟨otherRead, otherLine, otherReads⟩ := History.exists_read_broadcast otherSent
  have stamp := recoverable.stamp_of_read member reads
  have otherStamp := recoverable.stamp_of_read member otherReads
  have inRun := recoverable.inRun trace member
  by_cases first : read ++ [⟨line, .broadcast seq⟩] <+: otherRead
  next =>
    exact ⟨_, _, _, stamp, otherStamp, order_stampAfter config _ inRun first, .inl rfl⟩
  next =>
    have second : otherRead ++ [⟨otherLine, .broadcast other⟩] <+: read := by
      by_contra notAfter
      obtain ⟨-, same⟩ := History.eq_of_reads reads otherReads first notAfter
      cases same
      exact different rfl
    have order := VectorClock.order_swap (order_stampAfter config _ inRun second)
    exact ⟨_, _, _, stamp, otherStamp, order, .inr rfl⟩

end Recoverable

/-- Between two broadcasts of a log the stamps of its process go up, in the own slot by one for each
broadcast, whatever the numbers of the messages and whatever is delivered in between. So of two
messages of a log one is always before the other. -/
theorem stamps_of_log_ascend {config : Dependencies} {traces : List Trace} {stamps : Stamps}
    (recovered : Stamps.recover config traces = .ok stamps) {trace : Trace}
    (member : trace ∈ traces) :
    (∀ read between line laterLine seq laterSeq,
        read ++ ⟨line, .broadcast seq⟩ :: (between ++ [⟨laterLine, .broadcast laterSeq⟩]) <+:
            trace.entries →
          ∃ stamp later count, stamps[(⟨trace.process, seq⟩ : Message)]? = some stamp ∧
            stamps[(⟨trace.process, laterSeq⟩ : Message)]? = some later ∧
              stamp.order later = .ok .before ∧ stamp.get trace.process = .ok count ∧
                later.get trace.process = .ok (count +
                  (History.broadcasts (⟨line, .broadcast seq⟩ :: between)).length)) ∧
      ∀ seq ∈ History.broadcasts trace.entries, ∀ other ∈ History.broadcasts trace.entries,
        seq ≠ other →
          ∃ stamp otherStamp order, stamps[(⟨trace.process, seq⟩ : Message)]? = some stamp ∧
            stamps[(⟨trace.process, other⟩ : Message)]? = some otherStamp ∧
              stamp.order otherStamp = .ok order ∧ (order = .before ∨ order = .after) := by
  obtain ⟨recoverable, rfl⟩ := (recover_eq_ok_iff ..).1 recovered
  have inRun := recoverable.inRun trace member
  constructor
  next =>
    intro read between line laterLine seq laterSeq inside
    have split : read ++ ⟨line, .broadcast seq⟩ :: (between ++ [⟨laterLine, .broadcast laterSeq⟩]) =
        (read ++ ⟨line, .broadcast seq⟩ :: between) ++ [⟨laterLine, .broadcast laterSeq⟩] := by
      simp
    rw [split] at inside
    have first : read ++ [⟨line, .broadcast seq⟩] <+: read ++ ⟨line, .broadcast seq⟩ :: between :=
      ⟨between, by simp⟩
    have reads := first.trans (History.isPrefix_of_read inside)
    refine ⟨_, _, (History.broadcasts read).length, recoverable.stamp_of_read member reads,
      recoverable.stamp_of_read member inside, order_stampAfter config _ inRun first, ?_, ?_⟩
    next => rw [get_stampAfter config _ _ inRun, if_pos rfl]
    next =>
      rw [get_stampAfter config _ _ inRun, if_pos rfl, History.broadcasts_append,
        List.length_append]
  next =>
    intro seq sent other otherSent different
    exact recoverable.exists_order member sent otherSent different

def unorderedTraces : List Trace :=
  [⟨.ofIndex 0, "1.output", "1.output",
      [⟨1, .broadcast 7⟩, ⟨2, .deliver ⟨.ofIndex 0, 7⟩⟩, ⟨3, .deliver ⟨.ofIndex 0, 7⟩⟩,
        ⟨4, .deliver ⟨.ofIndex 1, 5⟩⟩, ⟨5, .broadcast 3⟩, ⟨6, .broadcast 9⟩]⟩,
    ⟨.ofIndex 1, "2.output", "2.output", [⟨1, .broadcast 5⟩]⟩]

def unorderedConfig : Dependencies :=
  .ofNumbers 3 [[1, 2], []]

theorem stamps_of_log_ascend_unordered :
    ∃ stamps stamp later, Stamps.recover unorderedConfig unorderedTraces = .ok stamps ∧
      stamps[(⟨.ofIndex 0, 7⟩ : Message)]? = some stamp ∧
        stamps[(⟨.ofIndex 0, 9⟩ : Message)]? = some later ∧ stamp.order later = .ok .before ∧
          stamp.get (.ofIndex 0) = .ok 0 ∧ later.get (.ofIndex 0) = .ok 2 ∧
            ∃ otherStamp order, stamps[(⟨.ofIndex 0, 3⟩ : Message)]? = some otherStamp ∧
              later.order otherStamp = .ok order ∧ (order = .before ∨ order = .after) := by
  have recoverable : Recoverable unorderedConfig.processCount unorderedTraces :=
    ⟨by decide, by decide, by decide⟩
  have recovered := (recover_eq_ok_iff _ unorderedTraces _).2 ⟨recoverable, rfl⟩
  have member : unorderedTraces[0] ∈ unorderedTraces := by decide
  obtain ⟨ascend, compared⟩ := stamps_of_log_ascend recovered member
  obtain ⟨stamp, later, count, found, laterFound, before, own, laterOwn⟩ :=
    ascend [] ((unorderedTraces[0].entries.drop 1).take 4) 1 6 7 9 (by decide)
  obtain ⟨again, otherStamp, order, sameFound, otherFound, answer, apart⟩ :=
    compared 9 (by decide) 3 (by decide) (by decide)
  have stampIs : (stampsOf unorderedConfig unorderedTraces)[(⟨.ofIndex 0, 7⟩ : Message)]? =
      some ⟨[0, 0]⟩ := by
    decide +kernel
  cases found.symm.trans stampIs
  cases own
  cases laterFound.symm.trans sameFound
  exact ⟨_, _, _, recovered, found, laterFound, before, rfl, laterOwn, otherStamp, order,
    otherFound, answer, apart⟩

end BroadcastAudit.Causal
