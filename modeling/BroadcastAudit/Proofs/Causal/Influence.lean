import BroadcastAudit.Proofs.Causal.Recoverable

set_option autoImplicit false

namespace BroadcastAudit.Causal

inductive Mark where
  | sent (seq : Nat)
  | heard (sender : ProcessId)
deriving DecidableEq

def Mark.isSent : Mark → Bool
  | sent _ => true
  | heard _ => false

def mark? (config : Dependencies) (process : ProcessId) (entry : LogEntry) : Option Mark :=
  match entry.event with
  | .broadcast seq => some (.sent seq)
  | .deliver message =>
    if message.sender ≠ process ∧ config.Depends process message.sender then
      some (.heard message.sender)
    else none

def marks (config : Dependencies) (process : ProcessId) (entries : List LogEntry) : List Mark :=
  entries.filterMap (mark? config process)

def stampOfMarks (processCount : Nat) (process : ProcessId) (before : List Mark) : VectorClock :=
  .ofSlots processCount fun other =>
    if other = process then before.countP Mark.isSent else before.count (.heard other)

section Marks

variable (config : Dependencies) (process : ProcessId)

theorem marks_append_singleton (read : List LogEntry) (entry : LogEntry) :
    marks config process (read ++ [entry]) =
      marks config process read ++ (mark? config process entry).toList := by
  cases mark : mark? config process entry <;> simp [marks, mark]

theorem countP_isSent_marks (read : List LogEntry) :
    (marks config process read).countP Mark.isSent = (History.broadcasts read).length := by
  induction read using List.reverseRecOn with
  | nil => rfl
  | append_singleton read entry ih =>
    rw [marks_append_singleton, List.countP_append, ih, History.broadcasts_append,
      List.length_append]
    obtain ⟨line, seq | message⟩ := entry
    next => rfl
    next =>
      simp only [mark?]
      split_ifs <;> rfl

theorem count_heard_marks (read : List LogEntry) {sender : ProcessId} (other : sender ≠ process) :
    (marks config process read).count (.heard sender) = pastSlots config process read sender := by
  induction read using List.reverseRecOn with
  | nil => simp [marks, pastSlots]
  | append_singleton read entry ih =>
    rw [marks_append_singleton, List.count_append, ih]
    obtain ⟨line, seq | message⟩ := entry
    next => simp [mark?, pastSlots_broadcast]
    next =>
      rw [pastSlots_deliver]
      by_cases same : message.sender = sender
      next =>
        subst same
        by_cases depends : config.Depends process message.sender <;> simp [mark?, other, depends]
      next =>
        have apart : ¬ sender = message.sender := fun eq => same eq.symm
        simp only [mark?]
        split_ifs <;> simp [same, apart]

theorem stampAfter_eq_stampOfMarks (read : List LogEntry) :
    stampAfter config process read =
      stampOfMarks config.processCount process (marks config process read) := by
  rw [stampAfter, stampOfMarks]
  congr 1
  funext other
  by_cases same : other = process
  next => simp [same, countP_isSent_marks]
  next => simp [same, count_heard_marks]

theorem stamped_iff_marks (entries : List LogEntry) (seq : Nat) (stamp : VectorClock) :
    Stamped config process entries seq stamp ↔
      ∃ before, before ++ [.sent seq] <+: marks config process entries ∧
        stamp = stampOfMarks config.processCount process before := by
  induction entries using List.reverseRecOn with
  | nil => simp [Stamped, marks]
  | append_singleton read entry ih =>
    rw [stamped_append_singleton, ih, marks_append_singleton, stampAfter_eq_stampOfMarks]
    obtain ⟨line, number | message⟩ := entry
    next =>
      simp only [mark?, Option.toList_some, List.prefix_concat_iff, List.append_singleton_inj,
        Mark.sent.injEq, Event.broadcast.injEq, or_and_right, exists_or, and_assoc, exists_eq_left]
      rw [or_comm, eq_comm (a := number)]
    next =>
      simp only [mark?]
      split_ifs <;> simp [List.prefix_concat_iff, List.append_singleton_inj]

end Marks

theorem getElem?_stampsOf_of_alone {config : Dependencies} {traces : List Trace}
    (recoverable : Recoverable config.processCount traces) {process : ProcessId} {trace : Trace}
    (alone : traces.filter (·.process = process) = [trace]) (seq : Nat) (stamp : VectorClock) :
    (stampsOf config traces)[(⟨process, seq⟩ : Message)]? = some stamp ↔
      Stamped config process trace.entries seq stamp := by
  have only (other : Trace) : other ∈ traces ∧ other.process = process ↔ other = trace := by
    rw [← List.mem_singleton (b := trace), ← alone, List.mem_filter, decide_eq_true_eq]
  rw [recoverable.getElem?_stampsOf]
  constructor
  next =>
    rintro ⟨other, member, rfl, stamped⟩
    obtain rfl := (only other).1 ⟨member, rfl⟩
    exact stamped
  next =>
    intro stamped
    obtain ⟨member, sender⟩ := (only trace).2 rfl
    exact ⟨trace, member, sender, by rwa [sender]⟩

/-- Two runs in which a process left the same marks give its messages the same stamps. -/
theorem stamps_eq_of_marks_eq {config otherConfig : Dependencies} {traces others : List Trace}
    {stamps otherStamps : Stamps} {process : ProcessId} {trace other : Trace}
    (sameCount : config.processCount = otherConfig.processCount)
    (recovered : Stamps.recover config traces = .ok stamps)
    (otherRecovered : Stamps.recover otherConfig others = .ok otherStamps)
    (alone : traces.filter (·.process = process) = [trace])
    (otherAlone : others.filter (·.process = process) = [other])
    (sameMarks : marks config process trace.entries = marks otherConfig process other.entries)
    (seq : Nat) :
    stamps[(⟨process, seq⟩ : Message)]? = otherStamps[(⟨process, seq⟩ : Message)]? := by
  obtain ⟨recoverable, rfl⟩ := (recover_eq_ok_iff ..).1 recovered
  obtain ⟨otherRecoverable, rfl⟩ := (recover_eq_ok_iff ..).1 otherRecovered
  apply Option.ext
  intro stamp
  rw [getElem?_stampsOf_of_alone recoverable alone,
    getElem?_stampsOf_of_alone otherRecoverable otherAlone, stamped_iff_marks, stamped_iff_marks,
    sameMarks, sameCount]

def chattyTraces : List Trace :=
  [⟨.ofIndex 0, "1.output", "1.output",
      [⟨1, .deliver ⟨.ofIndex 0, 1⟩⟩, ⟨2, .deliver ⟨.ofIndex 2, 1⟩⟩,
        ⟨3, .deliver ⟨.ofIndex 1, 5⟩⟩, ⟨4, .broadcast 1⟩, ⟨5, .deliver ⟨.ofIndex 1, 5⟩⟩,
        ⟨6, .broadcast 2⟩]⟩,
    ⟨.ofIndex 2, "3.output", "3.output", [⟨1, .broadcast 1⟩]⟩]

def terseTraces : List Trace :=
  [⟨.ofIndex 1, "2.output", "2.output", [⟨1, .broadcast 1⟩, ⟨2, .broadcast 2⟩]⟩,
    ⟨.ofIndex 0, "1.output", "1.output",
      [⟨1, .deliver ⟨.ofIndex 1, 1⟩⟩, ⟨2, .broadcast 1⟩, ⟨3, .deliver ⟨.ofIndex 1, 2⟩⟩,
        ⟨4, .broadcast 2⟩]⟩]

def chattyConfig : Dependencies :=
  .ofNumbers 1 [[1, 2], [], []]

def terseConfig : Dependencies :=
  .ofNumbers 9 [[2], [1, 3], [1]]

theorem stamps_eq_of_marks_eq_terse :
    chattyConfig.processCount = terseConfig.processCount ∧
      chattyTraces.filter (·.process = .ofIndex 0) = [chattyTraces[0]] ∧
        terseTraces.filter (·.process = .ofIndex 0) = [terseTraces[1]] ∧
          marks chattyConfig (.ofIndex 0) chattyTraces[0].entries =
            marks terseConfig (.ofIndex 0) terseTraces[1].entries ∧
          ∃ stamps otherStamps, Stamps.recover chattyConfig chattyTraces = .ok stamps ∧
            Stamps.recover terseConfig terseTraces = .ok otherStamps ∧
              ∀ seq, stamps[(⟨.ofIndex 0, seq⟩ : Message)]? =
                otherStamps[(⟨.ofIndex 0, seq⟩ : Message)]? := by
  have sameCount : chattyConfig.processCount = terseConfig.processCount := rfl
  have chatty : Recoverable chattyConfig.processCount chattyTraces :=
    ⟨by decide, by decide, by decide⟩
  have terse : Recoverable terseConfig.processCount terseTraces :=
    ⟨by decide, by decide, by decide⟩
  have recovered := (recover_eq_ok_iff chattyConfig chattyTraces _).2 ⟨chatty, rfl⟩
  have otherRecovered := (recover_eq_ok_iff terseConfig terseTraces _).2 ⟨terse, rfl⟩
  have alone : chattyTraces.filter (·.process = .ofIndex 0) = [chattyTraces[0]] := by decide
  have otherAlone : terseTraces.filter (·.process = .ofIndex 0) = [terseTraces[1]] := by decide
  have sameMarks : marks chattyConfig (.ofIndex 0) chattyTraces[0].entries =
      marks terseConfig (.ofIndex 0) terseTraces[1].entries := by decide
  exact ⟨sameCount, alone, otherAlone, sameMarks, _, _, recovered, otherRecovered,
    stamps_eq_of_marks_eq sameCount recovered otherRecovered alone otherAlone sameMarks⟩

end BroadcastAudit.Causal
