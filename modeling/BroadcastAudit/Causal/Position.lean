import BroadcastAudit.Trace

set_option autoImplicit false

namespace BroadcastAudit.Causal

structure Position where
  trace : Nat
  entry : Nat
deriving DecidableEq

def Position.Before (position other : Position) : Prop :=
  position.trace < other.trace ∨
    position.trace = other.trace ∧ position.entry < other.entry

structure StandsAt (traces : List Trace) (position : Position) (trace : Trace)
    (read : List LogEntry) (entry : LogEntry) : Prop where
  listed : traces[position.trace]? = some trace
  reads : read ++ [entry] <+: trace.entries
  length : read.length = position.entry

def SentAt (traces : List Trace) (message : Message) (position : Position)
    (read : List LogEntry) : Prop :=
  ∃ trace line, StandsAt traces position trace read ⟨line, .broadcast message.seq⟩ ∧
    trace.process = message.sender

theorem Position.eq_of_not_before {position other : Position} (notAfter : ¬ other.Before position)
    (notBefore : ¬ position.Before other) : position = other := by
  obtain ⟨trace, entry⟩ := position
  obtain ⟨otherTrace, otherEntry⟩ := other
  simp only [Before] at notAfter notBefore
  rw [Position.mk.injEq]
  omega

theorem StandsAt.mem {traces : List Trace} {position : Position} {trace : Trace}
    {read : List LogEntry} {entry : LogEntry}
    (h : StandsAt traces position trace read entry) : trace ∈ traces :=
  List.mem_of_getElem? h.listed

theorem exists_standsAt {traces : List Trace} {trace : Trace} {read : List LogEntry}
    {entry : LogEntry} (member : trace ∈ traces) (reads : read ++ [entry] <+: trace.entries) :
    ∃ position, StandsAt traces position trace read entry := by
  obtain ⟨index, listed⟩ := List.mem_iff_getElem?.1 member
  exact ⟨⟨index, read.length⟩, listed, reads, rfl⟩

end BroadcastAudit.Causal
