import BroadcastAudit.Proofs.Causal.Judgement
import BroadcastAudit.Proofs.Causal.Recoverable

set_option autoImplicit false

namespace BroadcastAudit.Causal

open Replays

def Sending.Reached (config : Dependencies) (traces : List Trace) (trace : Trace)
    (sending : Sending) : Prop :=
  ∃ earlier stamps read, earlier ++ [trace] <+: traces ∧
    Stamps.recover config earlier = .ok stamps ∧ trace.process.val ≤ config.processCount ∧
      read <+: trace.entries ∧
        read.foldlM (step config trace) (start config.processCount stamps) = .ok sending

def Receiving.Reached (config : Dependencies) (stamps : Stamps) (trace : Trace)
    (receiving : Receiving) : Prop :=
  ∃ read, read <+: trace.entries ∧
    read.foldlM (step config stamps trace) (start config.processCount) = .ok receiving

-- The operations of a step have a result for every sender that the step lets pass.
structure Sending.InDomain (config : Dependencies) (trace : Trace) (sending : Sending) : Prop where
  size : sending.past.size = config.processCount
  stamp : ∃ stamp, sending.past.set trace.process sending.broadcasts = .ok stamp
  row : ∀ sender : ProcessId, sender.val ≤ config.processCount →
    ∃ counts, config.depends trace.process sender = .ok counts
  slot : ∀ sender : ProcessId, sender.val ≤ config.processCount →
    ∃ past, sending.past.increment sender = .ok past

structure Receiving.InDomain (config : Dependencies) (stamps : Stamps) (receiving : Receiving) :
    Prop where
  size : receiving.observed.size = config.processCount
  sizes : ∀ (message : Message) (required : VectorClock), stamps[message]? = some required →
    required.size = config.processCount
  order : ∀ (message : Message) (required : VectorClock), stamps[message]? = some required →
    ∃ covered, receiving.observed.covers required = .ok covered
  slot : ∀ sender : ProcessId, sender.val ≤ config.processCount →
    ∃ observed, receiving.observed.increment sender = .ok observed

theorem misuse_ne_settle {α : Type} (fault? : Option Fault) (value : α) (misuse : Misuse) :
    settle (fault?.map Failure.fault) value ≠ .error (.misuse misuse) := by
  cases fault? <;> simp [settle]

theorem Sending.Reached.inDomain {config : Dependencies} {traces : List Trace} {trace : Trace}
    {sending : Sending} (reached : Reached config traces trace sending) :
    sending.InDomain config trace := by
  obtain ⟨earlier, stamps, read, -, -, inRun, -, replayed⟩ := reached
  rw [foldlM_step_eq_settle config trace stamps inRun, settle_eq_ok_iff] at replayed
  obtain ⟨-, rfl⟩ := replayed
  have size : (after config trace.process stamps read).past.size = config.processCount :=
    VectorClock.size_ofSlots _ _
  refine ⟨size, ⟨_, VectorClock.set_eq_ok _ _ _ (size.symm ▸ inRun)⟩, ?_, ?_⟩
  next =>
    intro sender known
    obtain ⟨row, -, found⟩ := config.depends_eq_ok trace.process sender inRun known
    exact ⟨_, found⟩
  next =>
    intro sender known
    exact ⟨_, VectorClock.increment_eq_ok _ _ (size.symm ▸ known)⟩

theorem Receiving.Reached.inDomain {config : Dependencies} {stamps : Stamps}
    (sized : Sized config.processCount stamps) {trace : Trace} {receiving : Receiving}
    (reached : Reached config stamps trace receiving) : receiving.InDomain config stamps := by
  obtain ⟨read, -, replayed⟩ := reached
  rw [foldlM_step_eq_settle config stamps sized, settle_eq_ok_iff] at replayed
  obtain ⟨-, rfl⟩ := replayed
  have size : (observedAfter config.processCount read).size = config.processCount :=
    VectorClock.size_ofSlots _ _
  refine ⟨size, sized, ?_, ?_⟩
  next =>
    intro message required found
    exact ⟨_, VectorClock.covers_eq_ok _ _ (sized.eq_observedAfter found read)⟩
  next =>
    intro sender known
    exact ⟨_, VectorClock.increment_eq_ok _ _ (size.symm ▸ known)⟩

/-- Neither pass takes a clock or a configuration outside its domain, whatever the traces hold, and
neither does a whole check. -/
theorem no_misuse {clockConfig config : Dependencies}
    (sameCount : clockConfig.processCount = config.processCount)
    (clockTraces traces : List Trace) :
    (∀ misuse, Stamps.recover clockConfig clockTraces ≠ .error (.misuse misuse)) ∧
      (∀ trace sending, Sending.Reached clockConfig clockTraces trace sending →
        sending.InDomain clockConfig trace) ∧
      (∀ stamps, Stamps.recover clockConfig clockTraces = .ok stamps →
        (∀ misuse, judge config stamps traces ≠ .error (.misuse misuse)) ∧
          ∀ trace receiving, Receiving.Reached config stamps trace receiving →
            receiving.InDomain config stamps) ∧
      ∀ misuse, check config traces ≠ .error (.misuse misuse) := by
  refine ⟨fun misuse => ?_, fun trace sending reached => reached.inDomain, ?_, fun misuse => ?_⟩
  next =>
    rw [recover_eq_settle]
    exact misuse_ne_settle _ _ misuse
  next =>
    intro stamps recovered
    obtain ⟨-, rfl⟩ := (recover_eq_ok_iff ..).1 recovered
    have sized : Sized config.processCount (stampsOf clockConfig clockTraces) :=
      sameCount ▸ sized_stampsOf clockConfig clockTraces
    refine ⟨fun misuse => ?_, fun trace receiving reached => reached.inDomain sized⟩
    rw [judge_eq_settle config _ sized]
    exact misuse_ne_settle _ _ misuse
  next =>
    rw [check_eq_settle]
    exact misuse_ne_settle _ _ misuse

example :
    (do
      let sent : Trace := ⟨.ofIndex 0, "1.output", "1.output", [⟨1, .broadcast 1⟩]⟩
      let heard : Trace := ⟨.ofIndex 1, "2.output", "2.output", [⟨1, .deliver ⟨.ofIndex 0, 1⟩⟩]⟩
      let stamps ← Stamps.recover (.ofNumbers 1 [[]]) [sent]
      judge (.ofNumbers 1 [[], []]) stamps [heard]) =
    .error (.misuse .clocksOfDifferentRuns) := by
  decide +kernel

def answeringTraces : List Trace :=
  [⟨.ofIndex 1, "2.output", "2.output", [⟨1, .broadcast 9⟩]⟩,
    ⟨.ofIndex 0, "1.output", "1.output", [⟨1, .deliver ⟨.ofIndex 1, 9⟩⟩, ⟨2, .broadcast 4⟩]⟩]

def strayTraces : List Trace :=
  [⟨.ofIndex 8, "9.output", "9.output",
      [⟨1, .deliver ⟨.ofIndex 0, 4⟩⟩, ⟨2, .deliver ⟨.ofIndex 0, 4⟩⟩, ⟨3, .broadcast 4⟩]⟩,
    ⟨.ofIndex 1, "2.output", "2.output", [⟨1, .deliver ⟨.ofIndex 1, 9⟩⟩]⟩]

theorem no_misuse_stray :
    (Dependencies.ofNumbers 1 [[2], []]).processCount =
        (Dependencies.ofNumbers 7 [[], [1]]).processCount ∧
      ∃ stamps, Stamps.recover (.ofNumbers 1 [[2], []]) answeringTraces = .ok stamps ∧
        (∀ misuse, judge (.ofNumbers 7 [[], [1]]) stamps strayTraces ≠ .error (.misuse misuse)) ∧
          ∀ misuse, check (.ofNumbers 7 [[], [1]]) strayTraces ≠ .error (.misuse misuse) := by
  have sameCount : (Dependencies.ofNumbers 1 [[2], []]).processCount =
      (Dependencies.ofNumbers 7 [[], [1]]).processCount := rfl
  have recoverable :
      Recoverable (Dependencies.ofNumbers 1 [[2], []]).processCount answeringTraces :=
    ⟨by decide, by decide, by decide⟩
  have recovered := (recover_eq_ok_iff _ answeringTraces _).2 ⟨recoverable, rfl⟩
  obtain ⟨-, -, judged, checked⟩ := no_misuse sameCount answeringTraces strayTraces
  exact ⟨sameCount, _, recovered, (judged _ recovered).1, checked⟩

end BroadcastAudit.Causal
