import BroadcastAudit.Causal.Report
import BroadcastAudit.Proofs.Causal.Recovery

set_option autoImplicit false

namespace BroadcastAudit.Causal

open Replays

def observedAfter (processCount : Nat) (read : List LogEntry) : VectorClock :=
  .ofSlots processCount fun sender => (History.deliveriesFrom sender read).length

def violation? (processCount : Nat) (stamps : Stamps) (process : ProcessId) :
    List LogEntry × LogEntry → Option Violation
  | (_, ⟨_, .broadcast _⟩) => none
  | (read, ⟨line, .deliver message⟩) =>
    stamps[message]?.bind fun required =>
      if (observedAfter processCount read).Covers required then none
      else some ⟨process, line, message, required, observedAfter processCount read⟩

def violationsIn (processCount : Nat) (stamps : Stamps) (process : ProcessId)
    (entries : List LogEntry) : List Violation :=
  (withPast entries).filterMap (violation? processCount stamps process)

def Receiving.after (processCount : Nat) (stamps : Stamps) (process : ProcessId)
    (read : List LogEntry) : Receiving where
  observed := observedAfter processCount read
  violations := (violationsIn processCount stamps process read).toArray
  deliveries := (History.deliveries read).length

def receivingFault? (processCount : Nat) (stamps : Stamps) (trace : Trace) (entry : LogEntry) :
    Option Fault :=
  match entry.event with
  | .broadcast _ => none
  | .deliver message =>
    if message.sender.val ≤ processCount then
      if message ∈ stamps then none
      else some (.neverBroadcast (trace.place entry) message)
    else some (.unknownSender (trace.place entry) message.sender processCount)

def judgeFault? (processCount : Nat) (stamps : Stamps) (traces : List Trace) : Option Fault :=
  traces.findSome? fun trace => trace.entries.findSome? (receivingFault? processCount stamps trace)

def traceReport (processCount : Nat) (stamps : Stamps) (trace : Trace) : Report where
  violations := violationsIn processCount stamps trace.process trace.entries
  deliveries := (History.deliveries trace.entries).length

def reportOf (config : Dependencies) (traces : List Trace) : Report :=
  .join (traces.map (traceReport config.processCount (stampsOf config traces)))

def checkFault? (config : Dependencies) (traces : List Trace) : Option Fault :=
  (recoverFault? config traces).or
    (judgeFault? config.processCount (stampsOf config traces) traces)

def Sized (processCount : Nat) (stamps : Stamps) : Prop :=
  ∀ (message : Message) (stamp : VectorClock), stamps[message]? = some stamp →
    stamp.size = processCount

theorem sized_stampsAfter (config : Dependencies) (process : ProcessId) (stamps : Stamps)
    (sized : Sized config.processCount stamps) (read : List LogEntry) :
    Sized config.processCount (stampsAfter config process stamps read) := by
  induction read using List.reverseRecOn with
  | nil => simpa [stampsAfter] using sized
  | append_singleton read entry ih =>
    rw [stampsAfter_append_singleton]
    obtain ⟨line, seq | delivered⟩ := entry
    next =>
      intro message stamp found
      simp only [addStamp, Std.ExtTreeMap.getElem?_insert] at found
      split at found
      next =>
        cases found
        exact VectorClock.size_ofSlots _ _
      next => exact ih message stamp found
    next => exact ih

theorem sized_stampsOf (config : Dependencies) (traces : List Trace) :
    Sized config.processCount (stampsOf config traces) := by
  induction traces using List.reverseRecOn with
  | nil => simp [Sized, stampsOf]
  | append_singleton traces trace ih =>
    rw [stampsOf_append_singleton]
    exact sized_stampsAfter config trace.process _ ih trace.entries

theorem Sized.eq_observedAfter {processCount : Nat} {stamps : Stamps}
    (sized : Sized processCount stamps) {message : Message} {required : VectorClock}
    (found : stamps[message]? = some required) (read : List LogEntry) :
    required.size = (observedAfter processCount read).size := by
  rw [sized message required found, observedAfter, VectorClock.size_ofSlots]

theorem violation?_eq_some_iff (processCount : Nat) (stamps : Stamps) (process : ProcessId)
    (read : List LogEntry) (entry : LogEntry) (violation : Violation) :
    violation? processCount stamps process (read, entry) = some violation ↔
      violation.process = process ∧ entry = ⟨violation.line, .deliver violation.message⟩ ∧
        stamps[violation.message]? = some violation.required ∧
          violation.observed = observedAfter processCount read ∧
            ¬ violation.observed.Covers violation.required := by
  obtain ⟨line, seq | message⟩ := entry
  next => simp [violation?]
  next =>
    obtain ⟨reporter, number, reported, required, observed⟩ := violation
    simp only [violation?, Option.bind_eq_some_iff, Option.ite_none_left_eq_some,
      Option.some.injEq, Violation.mk.injEq, LogEntry.mk.injEq, Event.deliver.injEq]
    constructor
    next =>
      rintro ⟨stamp, found, uncovered, rfl, rfl, rfl, rfl, rfl⟩
      exact ⟨rfl, ⟨rfl, rfl⟩, found, rfl, uncovered⟩
    next =>
      rintro ⟨rfl, ⟨rfl, rfl⟩, found, rfl, uncovered⟩
      exact ⟨required, found, uncovered, rfl, rfl, rfl, rfl, rfl⟩

theorem violationsIn_append_singleton (processCount : Nat) (stamps : Stamps) (process : ProcessId)
    (read : List LogEntry) (entry : LogEntry) :
    violationsIn processCount stamps process (read ++ [entry]) =
      violationsIn processCount stamps process read ++
        (violation? processCount stamps process (read, entry)).toList := by
  cases found : violation? processCount stamps process (read, entry) <;>
    simp [violationsIn, found]

theorem increment_observedAfter (processCount : Nat) (read : List LogEntry) (line : Nat)
    (message : Message) (inRun : message.sender.val ≤ processCount) :
    (observedAfter processCount read).increment message.sender =
      .ok (observedAfter processCount (read ++ [⟨line, .deliver message⟩])) := by
  rw [observedAfter, VectorClock.increment_ofSlots _ _ _ inRun, observedAfter]
  congr 2
  funext sender
  by_cases same : sender = message.sender
  next =>
    subst same
    simp [History.deliveriesFrom_deliver]
  next =>
    have apart : ¬ message.sender = sender := fun eq => same eq.symm
    simp [History.deliveriesFrom_deliver, same, apart]

theorem Receiving.step_after (config : Dependencies) (stamps : Stamps)
    (sized : Sized config.processCount stamps) (trace : Trace) (read : List LogEntry)
    (entry : LogEntry) :
    (Receiving.after config.processCount stamps trace.process read).step config stamps trace entry =
      settle ((receivingFault? config.processCount stamps trace entry).map .fault)
        (Receiving.after config.processCount stamps trace.process (read ++ [entry])) := by
  obtain ⟨line, seq | message⟩ := entry
  next =>
    simp [step, after, receivingFault?, settle, observedAfter, violationsIn_append_singleton,
      violation?]
  next =>
    by_cases inRun : message.sender.val ≤ config.processCount
    next =>
      cases found : stamps[message]? with
      | none =>
        have unknown : message ∉ stamps := by simpa using found
        simp [step, deliver, Trace.checkSender, receivingFault?, inRun, unknown, bind,
          Except.bind, Except.mapError, settle, throw, throwThe, MonadExceptOf.throw]
      | some required =>
        have known : message ∈ stamps := by
          rw [Std.ExtTreeMap.mem_iff_isSome_getElem?, found]
          rfl
        have covers := VectorClock.covers_eq_ok _ _ (sized.eq_observedAfter found read)
        have observed := increment_observedAfter config.processCount read line message inRun
        simp only [step, deliver, after, Trace.checkSender, receivingFault?, inRun, known, found,
          if_true, covers, observed, bind, Except.bind, Except.mapError, pure, Except.pure,
          Option.map_none, settle, violationsIn_append_singleton, violation?, Option.bind_some]
        by_cases covered : (observedAfter config.processCount read).Covers required <;>
          simp [covered]
    next =>
      simp [step, deliver, Trace.checkSender, receivingFault?, inRun, bind, Except.bind,
        Except.mapError, settle]

theorem Receiving.foldlM_step_eq_settle (config : Dependencies) (stamps : Stamps)
    (sized : Sized config.processCount stamps) (trace : Trace) (read : List LogEntry) :
    read.foldlM (step config stamps trace) (.start config.processCount) =
      settle ((read.findSome? (receivingFault? config.processCount stamps trace)).map .fault)
        (.after config.processCount stamps trace.process read) := by
  have initial : start config.processCount =
      after config.processCount stamps trace.process [] := by
    simp [start, after, observedAfter, VectorClock.zero_eq_ofSlots, violationsIn]
  have run := foldlM_eq_settle _ _ _ (step_after config stamps sized trace) read
  rw [initial, run, firstError_map, firstError_const]

theorem judgeTrace_eq_settle (config : Dependencies) (stamps : Stamps)
    (sized : Sized config.processCount stamps) (trace : Trace) :
    judgeTrace config stamps trace =
      settle ((trace.entries.findSome?
          (receivingFault? config.processCount stamps trace)).map .fault)
        (traceReport config.processCount stamps trace) := by
  rw [judgeTrace, Receiving.foldlM_step_eq_settle config stamps sized, map_settle]
  simp [Receiving.report, Receiving.after, traceReport]

theorem judge_eq_settle (config : Dependencies) (stamps : Stamps)
    (sized : Sized config.processCount stamps) (traces : List Trace) :
    judge config stamps traces =
      settle ((judgeFault? config.processCount stamps traces).map .fault)
        (.join (traces.map (traceReport config.processCount stamps))) := by
  have each (trace : Trace) (_ : trace ∈ traces) :=
    judgeTrace_eq_settle config stamps sized trace
  rw [judge, mapM_eq_settle _ _ _ traces each, map_settle, judgeFault?, List.map_findSome?]
  rfl

theorem check_eq_settle (config : Dependencies) (traces : List Trace) :
    check config traces =
      settle ((checkFault? config traces).map .fault) (reportOf config traces) := by
  have judged := judge_eq_settle config _ (sized_stampsOf config traces) traces
  have both := settle_bind_settle ((recoverFault? config traces).map Failure.fault)
    (stampsOf config traces) (fun stamps => judge config stamps traces) _ _ judged
  rw [check, recover_eq_settle, both, checkFault?, reportOf, Option.map_or]

end BroadcastAudit.Causal
