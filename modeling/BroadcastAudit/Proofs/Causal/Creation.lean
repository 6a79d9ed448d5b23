import BroadcastAudit.Proofs.Causal.Outcome
import BroadcastAudit.Proofs.Links.Logs

set_option autoImplicit false

namespace BroadcastAudit.Causal

open Replays

def deliveredSets (trace : Trace) : MessageSets :=
  .ofMessages (History.deliveries trace.entries)

def broadcastSets (traces : List Trace) : MessageSets :=
  traces.foldl (fun sets trace =>
    sets.assign trace.process (.ofList (History.broadcasts trace.entries))) .empty

structure Creates (traces : List Trace) (trace : Trace) (message : Message) : Prop where
  delivered : (deliveredSets trace).contains message = true
  unsent : ¬ (broadcastSets traces).contains message = true

theorem contains_deliveredSets (trace : Trace) (message : Message) :
    (deliveredSets trace).contains message = true ↔
      message ∈ History.deliveries trace.entries :=
  MessageSets.contains_ofMessages _ message

theorem contains_broadcastSets {traces : List Trace} (nodup : (traces.map (·.process)).Nodup)
    (message : Message) :
    (broadcastSets traces).contains message = true ↔ IsBroadcast traces message := by
  induction traces using List.reverseRecOn with
  | nil => simp [broadcastSets, IsBroadcast]
  | append_singleton traces last ih =>
    rw [List.map_append, List.nodup_append_comm, List.map_singleton, List.singleton_append,
      List.nodup_cons] at nodup
    have split : broadcastSets (traces ++ [last]) =
        (broadcastSets traces).assign last.process (.ofList (History.broadcasts last.entries)) := by
      simp [broadcastSets]
    rw [split, MessageSets.contains, MessageSets.seqsOf_assign]
    by_cases own : last.process = message.sender
    next =>
      -- No earlier trace is of the same process, so the set of the last one is the whole set.
      have alone (trace : Trace) (member : trace ∈ traces) : trace.process ≠ message.sender :=
        fun same => nodup.1 (List.mem_map.2 ⟨trace, member, same.trans own.symm⟩)
      rw [if_pos own, Std.ExtTreeSet.contains_ofList, List.contains_iff_mem]
      constructor
      next => exact fun sent => ⟨last, by simp, own, sent⟩
      next =>
        rintro ⟨trace, member, same, sent⟩
        rcases List.mem_append.1 member with earlier | here
        next => exact absurd same (alone trace earlier)
        next => rwa [List.mem_singleton.1 here] at sent
    next =>
      rw [if_neg own]
      refine (ih nodup.2).trans ?_
      simp [IsBroadcast, or_and_right, exists_or, own]

section Run

variable {config : Dependencies} {traces : List Trace}
  (recoverable : Recoverable config.processCount traces)
  (oneEach : OneTraceEach config.processCount traces)

include oneEach

theorem OneTraceEach.creates_iff (trace : Trace) (message : Message) :
    Creates traces trace message ↔
      message ∈ History.deliveries trace.entries ∧ ¬ IsBroadcast traces message := by
  have delivered := contains_deliveredSets trace message
  have sent := contains_broadcastSets oneEach.nodup message
  exact ⟨fun creates => ⟨delivered.1 creates.delivered, mt sent.2 creates.unsent⟩,
    fun created => ⟨delivered.2 created.1, mt sent.1 created.2⟩⟩

include recoverable

theorem Recoverable.judgeTrace_ok_iff {trace : Trace} (member : trace ∈ traces) :
    (∃ report, judgeTrace config (stampsOf config traces) trace = .ok report) ↔
      Links.checkSent (deliveredSets trace) (broadcastSets traces) = .ok () := by
  rw [judgeTrace_eq_settle config _ (sized_stampsOf config traces), Links.checkSent_eq_ok_iff]
  simp only [settle_eq_ok_iff, exists_and_left, exists_eq', and_true, Option.map_eq_none_iff,
    receivingFault?_eq_none_iff, contains_deliveredSets, contains_broadcastSets oneEach.nodup]
  refine forall₂_congr fun message delivered => and_iff_right ?_
  exact recoverable.sendersInRun trace member message delivered

theorem Recoverable.creates_of_judgeTrace {trace : Trace} (member : trace ∈ traces)
    {failure : Failure}
    (failed : judgeTrace config (stampsOf config traces) trace = .error failure) :
    ∃ line message, failure = .fault (.neverBroadcast ⟨trace.name, line⟩ message) ∧
      ⟨line, .deliver message⟩ ∈ trace.entries ∧ Creates traces trace message := by
  rw [judgeTrace_eq_settle config _ (sized_stampsOf config traces)] at failed
  cases found : trace.entries.findSome?
      (receivingFault? config.processCount (stampsOf config traces) trace) with
  | none =>
    rw [found] at failed
    cases failed
  | some fault =>
    rw [found] at failed
    cases failed
    obtain ⟨entry, inside, here⟩ := List.exists_of_findSome?_eq_some found
    have point := (mem_scan_entry traces trace entry).2 ⟨member, inside⟩
    cases (recoverable.unsent?_eq_some_iff point fault).1 here with
    | neverBroadcast _ line message unsent =>
      have delivered := (History.mem_deliveries_iff ..).2 ⟨line, inside⟩
      exact ⟨line, message, rfl, inside, (oneEach.creates_iff trace message).2 ⟨delivered, unsent⟩⟩

end Run

theorem Creates.checkSent_eq_error {traces : List Trace} {trace : Trace} {message : Message}
    (creates : Creates traces trace message) :
    ∃ least, Message.Least (Creates traces trace) least ∧
      Links.checkSent (deliveredSets trace) (broadcastSets traces) = .error (.neverSent least) := by
  have unsent : ¬ ∀ other, (deliveredSets trace).contains other = true →
      (broadcastSets traces).contains other = true :=
    fun all => creates.unsent (all message creates.delivered)
  obtain ⟨least, found, checked⟩ := Links.checkSent_of_unsent _ _ unsent
  refine ⟨least, ⟨⟨found.holds.1, found.holds.2⟩, fun other created => ?_⟩, checked⟩
  exact found.first other ⟨created.delivered, created.unsent⟩

/-- The second pass gets through exactly if no trace is found to create a message, and otherwise it
stops in the first trace that does, at a message that the comparison refuses as well. -/
theorem judged_iff_checkSent {config : Dependencies} {traces : List Trace} {stamps : Stamps}
    (oneEach : OneTraceEach config.processCount traces)
    (recovered : Stamps.recover config traces = .ok stamps) :
    ((∃ report, judge config stamps traces = .ok report) ↔
        ∀ trace ∈ traces,
          Links.checkSent (deliveredSets trace) (broadcastSets traces) = .ok ()) ∧
      (∀ failure, judge config stamps traces = .error failure →
        ∃ before trace after, traces = before ++ trace :: after ∧
          (∀ other ∈ before,
            Links.checkSent (deliveredSets other) (broadcastSets traces) = .ok ()) ∧
          judgeTrace config stamps trace = .error failure) ∧
      ∀ trace ∈ traces, ∀ failure, judgeTrace config stamps trace = .error failure →
        ∃ line message least, failure = .fault (.neverBroadcast ⟨trace.name, line⟩ message) ∧
          ⟨line, .deliver message⟩ ∈ trace.entries ∧ Creates traces trace message ∧
            Message.Least (Creates traces trace) least ∧
              Links.checkSent (deliveredSets trace) (broadcastSets traces) =
                .error (.neverSent least) := by
  obtain ⟨recoverable, rfl⟩ := (recover_eq_ok_iff ..).1 recovered
  have each (trace : Trace) (member : trace ∈ traces) :=
    recoverable.judgeTrace_ok_iff oneEach member
  refine ⟨?_, fun failure failed => ?_, fun trace member failure failed => ?_⟩
  next =>
    rw [judge, exists_map_eq_ok_iff, exists_mapM_eq_ok_iff]
    exact forall₂_congr each
  next =>
    rw [judge, map_eq_error_iff, mapM_eq_error_iff] at failed
    obtain ⟨before, trace, after, split, stopped, earlier⟩ := failed
    refine ⟨before, trace, after, split, fun other inside => ?_, stopped⟩
    exact (each other (split ▸ List.mem_append_left _ inside)).1 (earlier other inside)
  next =>
    obtain ⟨line, message, named, inside, creates⟩ :=
      recoverable.creates_of_judgeTrace oneEach member failed
    obtain ⟨least, found, checked⟩ := creates.checkSent_eq_error
    exact ⟨line, message, least, named, inside, creates, found, checked⟩

def creatingTraces : List Trace :=
  [⟨.ofIndex 0, "1.output", "1.output", [⟨1, .broadcast 5⟩]⟩,
    ⟨.ofIndex 1, "2.output", "2.output",
      [⟨1, .deliver ⟨.ofIndex 0, 5⟩⟩, ⟨2, .deliver ⟨.ofIndex 0, 5⟩⟩, ⟨3, .deliver ⟨.ofIndex 0, 9⟩⟩,
        ⟨4, .deliver ⟨.ofIndex 0, 2⟩⟩]⟩]

theorem judged_iff_checkSent_creating :
    OneTraceEach (Dependencies.ofNumbers 1 [[], [1]]).processCount creatingTraces ∧
      ∃ stamps, Stamps.recover (.ofNumbers 1 [[], [1]]) creatingTraces = .ok stamps ∧
        judge (.ofNumbers 1 [[], [1]]) stamps creatingTraces =
            .error (.fault (.neverBroadcast ⟨"2.output", 3⟩ ⟨.ofIndex 0, 9⟩)) ∧
          ¬ ∀ trace ∈ creatingTraces,
            Links.checkSent (deliveredSets trace) (broadcastSets creatingTraces) = .ok () := by
  have oneEach : OneTraceEach (Dependencies.ofNumbers 1 [[], [1]]).processCount creatingTraces := by
    decide
  have recoverable : Recoverable (Dependencies.ofNumbers 1 [[], [1]]).processCount creatingTraces :=
    ⟨by decide, by decide, by decide⟩
  have recovered := (recover_eq_ok_iff _ creatingTraces _).2 ⟨recoverable, rfl⟩
  have judged : judge (.ofNumbers 1 [[], [1]]) (stampsOf (.ofNumbers 1 [[], [1]]) creatingTraces)
      creatingTraces = .error (.fault (.neverBroadcast ⟨"2.output", 3⟩ ⟨.ofIndex 0, 9⟩)) := by
    decide +kernel
  refine ⟨oneEach, _, recovered, judged, fun accepted => ?_⟩
  obtain ⟨report, passed⟩ := (judged_iff_checkSent oneEach recovered).1.2 accepted
  rw [judged] at passed
  cases passed

end BroadcastAudit.Causal
