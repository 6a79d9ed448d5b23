import BroadcastAudit.Causal.Precedence
import BroadcastAudit.Proofs.Replays
import BroadcastAudit.Proofs.Slots

set_option autoImplicit false

namespace BroadcastAudit.Causal

open Replays

def pastSlots (config : Dependencies) (process : ProcessId) (read : List LogEntry)
    (sender : ProcessId) : Nat :=
  if config.Depends process sender then (History.deliveriesFrom sender read).length else 0

def stampAfter (config : Dependencies) (process : ProcessId) (read : List LogEntry) :
    VectorClock :=
  .ofSlots config.processCount
    (Function.update (pastSlots config process read) process (History.broadcasts read).length)

def addStamp (config : Dependencies) (process : ProcessId) (stamps : Stamps) :
    List LogEntry × LogEntry → Stamps
  | (read, ⟨_, .broadcast seq⟩) => stamps.insert ⟨process, seq⟩ (stampAfter config process read)
  | (_, ⟨_, .deliver _⟩) => stamps

def stampsAfter (config : Dependencies) (process : ProcessId) (stamps : Stamps)
    (read : List LogEntry) : Stamps :=
  (withPast read).foldl (addStamp config process) stamps

def stampsOf (config : Dependencies) (traces : List Trace) : Stamps :=
  traces.foldl (fun stamps trace => stampsAfter config trace.process stamps trace.entries) ∅

def Sending.after (config : Dependencies) (process : ProcessId) (stamps : Stamps)
    (read : List LogEntry) : Sending where
  past := .ofSlots config.processCount (pastSlots config process read)
  broadcasts := (History.broadcasts read).length
  stamps := stampsAfter config process stamps read

def sendingFault? (config : Dependencies) (trace : Trace) (stamps : Stamps)
    (read : List LogEntry) (entry : LogEntry) : Option Fault :=
  match entry.event with
  | .broadcast seq =>
    if (⟨trace.process, seq⟩ : Message) ∈ stamps ∨ seq ∈ History.broadcasts read then
      some (.repeatedBroadcast (trace.place entry) ⟨trace.process, seq⟩)
    else none
  | .deliver message =>
    if message.sender.val ≤ config.processCount then none
    else some (.unknownSender (trace.place entry) message.sender config.processCount)

def traceFault? (config : Dependencies) (stamps : Stamps) (trace : Trace) : Option Fault :=
  if config.processCount < trace.process.val then
    some (.unknownLog trace.name trace.process config.processCount)
  else firstError (sendingFault? config trace stamps) trace.entries

def recoverFault? (config : Dependencies) (traces : List Trace) : Option Fault :=
  firstError (fun earlier => traceFault? config (stampsOf config earlier)) traces

theorem stampsAfter_append_singleton (config : Dependencies) (process : ProcessId)
    (stamps : Stamps) (read : List LogEntry) (entry : LogEntry) :
    stampsAfter config process stamps (read ++ [entry]) =
      addStamp config process (stampsAfter config process stamps read) (read, entry) := by
  simp [stampsAfter]

theorem stampsOf_append_singleton (config : Dependencies) (traces : List Trace) (trace : Trace) :
    stampsOf config (traces ++ [trace]) =
      stampsAfter config trace.process (stampsOf config traces) trace.entries := by
  simp [stampsOf]

theorem mem_stampsAfter (config : Dependencies) (process : ProcessId) (stamps : Stamps)
    (read : List LogEntry) (message : Message) :
    message ∈ stampsAfter config process stamps read ↔
      message ∈ stamps ∨ message.sender = process ∧ message.seq ∈ History.broadcasts read := by
  induction read using List.reverseRecOn with
  | nil => simp [stampsAfter]
  | append_singleton read entry ih =>
    rw [stampsAfter_append_singleton]
    obtain ⟨line, event | delivered⟩ := entry
    next =>
      obtain ⟨sender, seq⟩ := message
      simp only [addStamp, Std.ExtTreeMap.mem_insert, Std.compare_eq_iff_eq, Message.mk.injEq, ih,
        History.broadcasts_append, History.broadcasts_broadcast, History.broadcasts_nil,
        List.mem_append, List.mem_singleton]
      grind
    next => simpa [addStamp] using ih

theorem pastSlots_broadcast (config : Dependencies) (process : ProcessId) (read : List LogEntry)
    (line seq : Nat) :
    pastSlots config process (read ++ [⟨line, .broadcast seq⟩]) =
      pastSlots config process read := by
  funext sender
  simp [pastSlots]

theorem pastSlots_deliver (config : Dependencies) (process : ProcessId) (read : List LogEntry)
    (line : Nat) (message : Message) :
    pastSlots config process (read ++ [⟨line, .deliver message⟩]) =
      if config.Depends process message.sender then
        Function.update (pastSlots config process read) message.sender
          (pastSlots config process read message.sender + 1)
      else pastSlots config process read := by
  funext sender
  by_cases depends : config.Depends process message.sender
  next =>
    by_cases same : sender = message.sender
    next =>
      subst same
      simp [pastSlots, History.deliveriesFrom_deliver, depends]
    next =>
      have apart : ¬ message.sender = sender := fun eq => same eq.symm
      simp [pastSlots, History.deliveriesFrom_deliver, depends, same, apart]
  next =>
    by_cases same : message.sender = sender
    next =>
      subst same
      simp [pastSlots, depends]
    next => simp [pastSlots, History.deliveriesFrom_deliver, depends, same]

theorem Sending.step_after (config : Dependencies) (trace : Trace) (stamps : Stamps)
    (inRun : trace.process.val ≤ config.processCount) (read : List LogEntry) (entry : LogEntry) :
    (Sending.after config trace.process stamps read).step config trace entry =
      settle ((sendingFault? config trace stamps read entry).map .fault)
        (Sending.after config trace.process stamps (read ++ [entry])) := by
  obtain ⟨line, seq | message⟩ := entry
  next =>
    have stamp := VectorClock.set_ofSlots config.processCount
      (pastSlots config trace.process read) trace.process (History.broadcasts read).length inRun
    have known := mem_stampsAfter config trace.process stamps read ⟨trace.process, seq⟩
    simp only [true_and] at known
    simp only [step, broadcast, after, stamp, sendingFault?, ← known, bind, Except.bind,
      Except.mapError]
    by_cases repeated : (⟨trace.process, seq⟩ : Message) ∈
        stampsAfter config trace.process stamps read
    next => simp [repeated, settle, throw, throwThe, MonadExceptOf.throw]
    next =>
      simp [repeated, settle, pure, Except.pure, pastSlots_broadcast,
        stampsAfter_append_singleton, addStamp, stampAfter]
  next =>
    by_cases sender : message.sender.val ≤ config.processCount
    next =>
      have depends := config.depends_eq_ok_decide trace.process message.sender inRun sender
      have past := VectorClock.increment_ofSlots config.processCount
        (pastSlots config trace.process read) message.sender sender
      simp only [step, deliver, after, Trace.checkSender, sendingFault?, sender, if_true, depends,
        bind, Except.bind, Except.mapError, decide_eq_true_eq, Option.map_none, settle]
      by_cases counts : config.Depends trace.process message.sender <;>
        simp [counts, past, pure, Except.pure, pastSlots_deliver, stampsAfter_append_singleton,
          addStamp]
    next =>
      simp [step, deliver, Trace.checkSender, sendingFault?, sender, bind, Except.bind,
        Except.mapError, settle]

theorem Sending.foldlM_step_eq_settle (config : Dependencies) (trace : Trace) (stamps : Stamps)
    (inRun : trace.process.val ≤ config.processCount) (read : List LogEntry) :
    read.foldlM (step config trace) (.start config.processCount stamps) =
      settle ((firstError (sendingFault? config trace stamps) read).map .fault)
        (.after config trace.process stamps read) := by
  have initial : start config.processCount stamps = after config trace.process stamps [] := by
    have slots : pastSlots config trace.process [] = fun _ => 0 := by
      funext sender
      simp [pastSlots]
    simp [start, after, VectorClock.zero_eq_ofSlots, slots, stampsAfter]
  have run := foldlM_eq_settle _ _ _ (step_after config trace stamps inRun) read
  rw [initial, run, firstError_map]

theorem replay_eq_settle (config : Dependencies) (stamps : Stamps) (trace : Trace) :
    replay config stamps trace =
      settle ((traceFault? config stamps trace).map .fault)
        (stampsAfter config trace.process stamps trace.entries) := by
  unfold replay traceFault?
  split
  next => rfl
  next inRun =>
    rw [Sending.foldlM_step_eq_settle config trace stamps (Nat.le_of_not_lt inRun)]
    exact map_settle _ _ _

theorem recover_eq_settle (config : Dependencies) (traces : List Trace) :
    Stamps.recover config traces =
      settle ((recoverFault? config traces).map .fault) (stampsOf config traces) := by
  have step (earlier : List Trace) (trace : Trace) :
      replay config (stampsOf config earlier) trace =
        settle ((traceFault? config (stampsOf config earlier) trace).map .fault)
          (stampsOf config (earlier ++ [trace])) := by
    rw [replay_eq_settle, stampsOf_append_singleton]
  have run := foldlM_eq_settle _ _ _ step traces
  rw [firstError_map] at run
  exact run

theorem mem_stampsOf (config : Dependencies) (traces : List Trace) (message : Message) :
    message ∈ stampsOf config traces ↔ IsBroadcast traces message := by
  induction traces using List.reverseRecOn with
  | nil => simp [stampsOf, IsBroadcast]
  | append_singleton traces trace ih =>
    rw [stampsOf_append_singleton, mem_stampsAfter, ih]
    simp [IsBroadcast, or_and_right, exists_or, eq_comm]

def Stamped (config : Dependencies) (process : ProcessId) (entries : List LogEntry) (seq : Nat)
    (stamp : VectorClock) : Prop :=
  ∃ read line, read ++ [⟨line, .broadcast seq⟩] <+: entries ∧
    stamp = stampAfter config process read

theorem Stamped.mem_broadcasts {config : Dependencies} {process : ProcessId}
    {entries : List LogEntry} {seq : Nat} {stamp : VectorClock}
    (h : Stamped config process entries seq stamp) : seq ∈ History.broadcasts entries := by
  obtain ⟨read, line, ⟨rest, rfl⟩, -⟩ := h
  simp

theorem stamped_append_singleton (config : Dependencies) (process : ProcessId)
    (entries : List LogEntry) (entry : LogEntry) (seq : Nat) (stamp : VectorClock) :
    Stamped config process (entries ++ [entry]) seq stamp ↔
      Stamped config process entries seq stamp ∨
        entry.event = .broadcast seq ∧ stamp = stampAfter config process entries := by
  simp only [Stamped, List.prefix_concat_iff]
  constructor
  next =>
    rintro ⟨read, line, last | inside, rfl⟩
    next =>
      obtain ⟨rfl, same⟩ := List.append_inj' last rfl
      rw [List.singleton_inj] at same
      exact .inr ⟨congrArg LogEntry.event same.symm, rfl⟩
    next => exact .inl ⟨read, line, inside, rfl⟩
  next =>
    rintro (⟨read, line, inside, rfl⟩ | ⟨event, rfl⟩)
    next => exact ⟨read, line, .inr inside, rfl⟩
    next => exact ⟨entries, entry.line, .inl (by rw [← event]), rfl⟩

theorem getElem?_stampsAfter (config : Dependencies) (trace : Trace) (stamps : Stamps)
    (read : List LogEntry) (accepted : firstError (sendingFault? config trace stamps) read = none)
    (message : Message) (stamp : VectorClock) :
    (stampsAfter config trace.process stamps read)[message]? = some stamp ↔
      stamps[message]? = some stamp ∨
        trace.process = message.sender ∧
          Stamped config trace.process read message.seq stamp := by
  induction read using List.reverseRecOn with
  | nil => simp [stampsAfter, Stamped]
  | append_singleton read entry ih =>
    rw [firstError_append_singleton, Option.or_eq_none_iff] at accepted
    obtain ⟨earlier, here⟩ := accepted
    rw [stampsAfter_append_singleton, stamped_append_singleton]
    obtain ⟨line, seq | delivered⟩ := entry
    next =>
      obtain ⟨unknown, fresh⟩ : (⟨trace.process, seq⟩ : Message) ∉ stamps ∧
          seq ∉ History.broadcasts read := by
        simpa [sendingFault?] using here
      simp only [addStamp, Std.ExtTreeMap.getElem?_insert, Std.compare_eq_iff_eq,
        Event.broadcast.injEq]
      split
      next same =>
        subst same
        have missing : stamps[(⟨trace.process, seq⟩ : Message)]? = none := by
          simpa using unknown
        have unstamped : ¬ Stamped config trace.process read seq stamp :=
          fun stamped => fresh stamped.mem_broadcasts
        simp [missing, unstamped, eq_comm]
      next other =>
        have apart : ¬ (trace.process = message.sender ∧ seq = message.seq) := by
          rintro ⟨sender, rfl⟩
          exact other (by rw [sender])
        rw [ih earlier]
        tauto
    next => simpa [addStamp] using ih earlier

theorem getElem?_stampsOf (config : Dependencies) (traces : List Trace)
    (recovered : recoverFault? config traces = none) (message : Message) (stamp : VectorClock) :
    (stampsOf config traces)[message]? = some stamp ↔
      ∃ trace ∈ traces, trace.process = message.sender ∧
        Stamped config trace.process trace.entries message.seq stamp := by
  induction traces using List.reverseRecOn with
  | nil => simp [stampsOf]
  | append_singleton traces trace ih =>
    rw [recoverFault?, firstError_append_singleton, Option.or_eq_none_iff] at recovered
    obtain ⟨earlier, here⟩ := recovered
    have accepted : firstError (sendingFault? config trace (stampsOf config traces))
        trace.entries = none := by
      unfold traceFault? at here
      split at here
      next => cases here
      next => exact here
    rw [stampsOf_append_singleton, getElem?_stampsAfter config trace _ _ accepted, ih earlier]
    simp [or_and_right, exists_or]

end BroadcastAudit.Causal
