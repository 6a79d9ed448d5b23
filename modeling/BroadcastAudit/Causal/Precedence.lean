import BroadcastAudit.Causal.Stamps
import BroadcastAudit.History

set_option autoImplicit false

namespace BroadcastAudit.Causal

def OneTraceEach (processCount : Nat) (traces : List Trace) : Prop :=
  (traces.map (·.process)).Perm (ProcessId.all processCount)

instance (processCount : Nat) (traces : List Trace) :
    Decidable (OneTraceEach processCount traces) :=
  inferInstanceAs (Decidable (List.Perm _ _))

def IsBroadcast (traces : List Trace) (message : Message) : Prop :=
  ∃ trace ∈ traces, trace.process = message.sender ∧ message.seq ∈ History.broadcasts trace.entries

def DeliversBeforeBroadcast (traces : List Trace) (earlier later : Message) : Prop :=
  ∃ trace ∈ traces, trace.process = later.sender ∧
    ∃ before line after, trace.entries = before ++ ⟨line, .broadcast later.seq⟩ :: after ∧
      earlier ∈ History.deliveries before

inductive DirectlyPrecedes (config : Dependencies) (traces : List Trace) :
    Message → Message → Prop where
  | sameSender (sender : ProcessId) (i j : Nat) (less : i < j)
      (earlier : IsBroadcast traces ⟨sender, i⟩) (later : IsBroadcast traces ⟨sender, j⟩) :
      DirectlyPrecedes config traces ⟨sender, i⟩ ⟨sender, j⟩
  | dependency (earlier later : Message) (other : earlier.sender ≠ later.sender)
      (depends : config.Depends later.sender earlier.sender)
      (sent : IsBroadcast traces earlier)
      (delivered : DeliversBeforeBroadcast traces earlier later) :
      DirectlyPrecedes config traces earlier later

def Precedes (config : Dependencies) (traces : List Trace) :
    Message → Message → Prop :=
  Relation.TransGen (DirectlyPrecedes config traces)

theorem IsBroadcast.mono {traces others : List Trace} (sub : traces ⊆ others) {message : Message}
    (sent : IsBroadcast traces message) : IsBroadcast others message := by
  obtain ⟨trace, member, rest⟩ := sent
  exact ⟨trace, sub member, rest⟩

end BroadcastAudit.Causal
