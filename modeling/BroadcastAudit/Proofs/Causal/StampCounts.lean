import BroadcastAudit.Causal.Position
import BroadcastAudit.Proofs.Causal.Counts

set_option autoImplicit false

namespace BroadcastAudit.Causal

structure CountsPast (config : Dependencies) (process : ProcessId) (read : List LogEntry)
    (stamp : VectorClock) : Prop where
  size : stamp.size = config.processCount
  own : stamp.get process = .ok (History.broadcasts read).length
  dependency : ∀ sender, sender ≠ process → config.Depends process sender →
    stamp.get sender = .ok (History.deliveriesFrom sender read).length
  others : ∀ sender : ProcessId, sender ≠ process → sender.val ≤ config.processCount →
    ¬ config.Depends process sender → stamp.get sender = .ok 0

theorem get_stampAfter (config : Dependencies) (process : ProcessId) (read : List LogEntry)
    {sender : ProcessId} (inRun : sender.val ≤ config.processCount) :
    (stampAfter config process read).get sender =
      .ok (if sender = process then (History.broadcasts read).length
        else if config.Depends process sender then (History.deliveriesFrom sender read).length
        else 0) := by
  have inside : sender.val ≤ (stampAfter config process read).size := by
    rwa [stampAfter, VectorClock.size_ofSlots]
  rw [VectorClock.get_eq_slot _ _ inside, slot_stampAfter _ _ _ inRun]

theorem countsPast_iff {config : Dependencies} {process : ProcessId}
    (inRun : process.val ≤ config.processCount) (read : List LogEntry) (stamp : VectorClock) :
    CountsPast config process read stamp ↔ stamp = stampAfter config process read := by
  constructor
  next =>
    intro counts
    refine VectorClock.eq_of_get ?_ fun sender inside => ?_
    next => rw [counts.size, stampAfter, VectorClock.size_ofSlots]
    next =>
      rw [counts.size] at inside
      rw [get_stampAfter config process read inside]
      split
      next same => rw [same, counts.own]
      next apart =>
        split
        next depends => exact counts.dependency sender apart depends
        next independent => exact counts.others sender apart inside independent
  next =>
    rintro rfl
    refine ⟨VectorClock.size_ofSlots .., ?_, fun sender apart depends => ?_,
      fun sender apart inside independent => ?_⟩
    next => rw [get_stampAfter config process read inRun, if_pos rfl]
    next =>
      have inside := (Dependencies.le_processCount_of_depends depends).2
      rw [get_stampAfter config process read inside, if_neg apart, if_pos depends]
    next => rw [get_stampAfter config process read inside, if_neg apart, if_neg independent]

theorem StandsAt.exists_scan {traces : List Trace} {position : Position} {trace : Trace}
    {read : List LogEntry} {entry : LogEntry} (h : StandsAt traces position trace read entry) :
    ∃ before, before ++ [.entry trace entry] <+: scan traces ∧
      sent before = sent (scan (traces.take position.trace)) ++
        (History.broadcasts read).map fun seq => ⟨trace.process, seq⟩ := by
  obtain ⟨inside, rfl⟩ := List.getElem?_eq_some_iff.1 h.listed
  obtain ⟨rest, entries⟩ := h.reads
  refine ⟨scan (traces.take position.trace) ++
    .whole traces[position.trace] :: read.map (ScanPoint.entry traces[position.trace]), ?_, ?_⟩
  next =>
    have split := List.take_append_drop position.trace traces
    rw [List.drop_eq_getElem_cons inside] at split
    have points : scan traces = scan (traces.take position.trace) ++
        (ScanPoint.ofTrace traces[position.trace] ++ scan (traces.drop (position.trace + 1))) := by
      simp only [scan]
      rw [← List.flatMap_cons, ← List.flatMap_append, split]
    rw [points, ScanPoint.ofTrace, ← entries]
    simp
  next =>
    rw [sent_append, ← sent_entries]
    rfl

section Recoverable

variable {config : Dependencies} {traces : List Trace}

theorem Recoverable.not_sentAt_before {processCount : Nat}
    (recoverable : Recoverable processCount traces) {message : Message} {position other : Position}
    {read otherRead : List LogEntry} (first : SentAt traces message position read)
    (second : SentAt traces message other otherRead) : ¬ position.Before other := by
  intro earlier
  obtain ⟨trace, line, stands, sender⟩ := first
  obtain ⟨otherTrace, otherLine, otherStands, otherSender⟩ := second
  obtain ⟨before, inside, known⟩ := otherStands.exists_scan
  have fresh := (nodup_sent_iff _).1 recoverable.sentOnce before _ message inside
    (by simp [ScanPoint.sent?, otherSender])
  rw [known, List.mem_append, mem_sent_scan, otherSender] at fresh
  refine fresh ?_
  rcases earlier with before | ⟨same, less⟩
  next =>
    have listed : trace ∈ traces.take other.trace := by
      refine List.mem_of_getElem? (i := position.trace) ?_
      rw [List.getElem?_take_of_lt before, stands.listed]
    exact .inl ⟨trace, listed, sender, History.mem_broadcasts_of_read stands.reads⟩
  next =>
    have sameTrace : trace = otherTrace := by
      have listed := stands.listed
      rw [same, otherStands.listed, Option.some.injEq] at listed
      exact listed.symm
    subst sameTrace
    rw [← stands.length, ← otherStands.length] at less
    have inRead := History.isPrefix_of_length_lt stands.reads
      (History.isPrefix_of_read otherStands.reads) less
    exact .inr (List.mem_map.2 ⟨message.seq, History.mem_broadcasts_of_read inRead, rfl⟩)

theorem Recoverable.sentAt_unique {processCount : Nat}
    (recoverable : Recoverable processCount traces) {message : Message} {position other : Position}
    {read otherRead : List LogEntry} (here : SentAt traces message position read)
    (there : SentAt traces message other otherRead) : other = position :=
  Position.eq_of_not_before (recoverable.not_sentAt_before here there)
    (recoverable.not_sentAt_before there here)

theorem Recoverable.getElem?_stampsOf_iff (recoverable : Recoverable config.processCount traces)
    (message : Message) (stamp : VectorClock) :
    (stampsOf config traces)[message]? = some stamp ↔
      ∃ position read, SentAt traces message position read ∧
        CountsPast config message.sender read stamp := by
  rw [recoverable.getElem?_stampsOf]
  constructor
  next =>
    rintro ⟨trace, member, sender, read, line, reads, rfl⟩
    obtain ⟨position, stands⟩ := exists_standsAt member reads
    refine ⟨position, read, ⟨trace, line, stands, sender⟩, ?_⟩
    rw [← sender]
    exact (countsPast_iff (recoverable.inRun trace member) read _).2 rfl
  next =>
    rintro ⟨position, read, ⟨trace, line, stands, sender⟩, counts⟩
    rw [← sender, countsPast_iff (recoverable.inRun trace stands.mem)] at counts
    exact ⟨trace, stands.mem, sender, read, line, stands.reads, counts⟩

theorem Recoverable.size_stampsOf (recoverable : Recoverable config.processCount traces) :
    (stampsOf config traces).size =
      (traces.flatMap fun trace => History.broadcasts trace.entries).length := by
  have keys : (stampsOf config traces).keys.Perm (sent (scan traces)) := by
    rw [List.perm_ext_iff_of_nodup Std.ExtTreeMap.nodup_keys recoverable.sentOnce]
    intro message
    rw [Std.ExtTreeMap.mem_keys, mem_stampsOf, mem_sent_scan]
  rw [← Std.ExtTreeMap.length_keys, keys.length_eq, sent_scan]
  simp only [List.length_flatMap, List.length_map]

end Recoverable

/-- The recovered stamps are those of the messages that are broadcast. Each of these has one
position, its stamp counts what its sender had logged there, and there are as many stamps as
broadcasts. -/
theorem stamps_count_past {config : Dependencies} {traces : List Trace} {stamps : Stamps}
    (recovered : Stamps.recover config traces = .ok stamps) :
    (∀ message stamp, stamps[message]? = some stamp ↔
        ∃ position read, SentAt traces message position read ∧
          (∀ other otherRead, SentAt traces message other otherRead → other = position) ∧
            CountsPast config message.sender read stamp) ∧
      (∀ message, (∃ stamp, stamps[message]? = some stamp) ↔ IsBroadcast traces message) ∧
      stamps.size = (traces.flatMap fun trace => History.broadcasts trace.entries).length := by
  obtain ⟨recoverable, rfl⟩ := (recover_eq_ok_iff ..).1 recovered
  refine ⟨fun message stamp => ?_, fun message => ?_, recoverable.size_stampsOf⟩
  next =>
    rw [recoverable.getElem?_stampsOf_iff]
    constructor
    next =>
      rintro ⟨position, read, here, counts⟩
      exact ⟨position, read, here, fun _ _ => recoverable.sentAt_unique here, counts⟩
    next =>
      rintro ⟨position, read, here, -, counts⟩
      exact ⟨position, read, here, counts⟩
  next =>
    exact ⟨fun ⟨_, found⟩ => isBroadcast_of_stamp found, exists_stamp config⟩

def loosePartsTraces : List Trace :=
  [⟨.ofIndex 0, "1.output", "1.output",
      [⟨1, .deliver ⟨.ofIndex 0, 7⟩⟩, ⟨2, .deliver ⟨.ofIndex 1, 5⟩⟩, ⟨3, .broadcast 7⟩,
        ⟨4, .deliver ⟨.ofIndex 2, 1⟩⟩, ⟨5, .broadcast 9⟩]⟩,
    ⟨.ofIndex 1, "2.output", "2.output", [⟨1, .broadcast 5⟩]⟩,
    ⟨.ofIndex 0, "01.output", "01.output",
      [⟨1, .deliver ⟨.ofIndex 1, 5⟩⟩, ⟨2, .deliver ⟨.ofIndex 1, 5⟩⟩, ⟨3, .broadcast 3⟩]⟩,
    ⟨.ofIndex 2, "3.output", "3.output", [⟨1, .broadcast 1⟩]⟩]

def loosePartsConfig : Dependencies :=
  .ofNumbers 1 [[1, 2], [], []]

theorem stamps_count_past_loose_parts :
    ∃ stamps, Stamps.recover loosePartsConfig loosePartsTraces = .ok stamps ∧
      stamps[(⟨.ofIndex 0, 9⟩ : Message)]? = some ⟨[1, 1, 0]⟩ ∧
        (∃ position read, SentAt loosePartsTraces ⟨.ofIndex 0, 9⟩ position read ∧
          CountsPast loosePartsConfig (.ofIndex 0) read ⟨[1, 1, 0]⟩) ∧
          stamps.size = 5 := by
  have recoverable : Recoverable loosePartsConfig.processCount loosePartsTraces :=
    ⟨by decide, by decide, by decide⟩
  have recovered := (recover_eq_ok_iff _ loosePartsTraces _).2 ⟨recoverable, rfl⟩
  obtain ⟨stamped, -, size⟩ := stamps_count_past recovered
  have found : (stampsOf loosePartsConfig loosePartsTraces)[(⟨.ofIndex 0, 9⟩ : Message)]? =
      some ⟨[1, 1, 0]⟩ := by
    decide +kernel
  obtain ⟨position, read, sent, -, counts⟩ := (stamped _ _).1 found
  exact ⟨_, recovered, found, ⟨position, read, sent, counts⟩, size.trans rfl⟩

end BroadcastAudit.Causal
