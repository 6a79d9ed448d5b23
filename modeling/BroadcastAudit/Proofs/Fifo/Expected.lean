import BroadcastAudit.Fifo.InOrder
import Mathlib.Data.List.Induction

set_option autoImplicit false

namespace BroadcastAudit.Fifo

def Expected (read : List LogEntry) : Event → Prop
  | .broadcast seq => seq = (History.broadcasts read).length + 1
  | .deliver message =>
    message.seq = (History.deliveriesFrom message.sender read).length + 1

instance (read : List LogEntry) (event : Event) : Decidable (Expected read event) :=
  match event with
  | .broadcast _ => inferInstanceAs (Decidable (_ = _))
  | .deliver _ => inferInstanceAs (Decidable (_ = _))

def Breach.after (read : List LogEntry) : Event → Breach
  | .broadcast seq => .broadcast ((History.broadcasts read).length + 1) seq
  | .deliver message =>
    .delivery message.sender ((History.deliveriesFrom message.sender read).length + 1) message.seq

theorem inOrder_append_singleton (read : List LogEntry) (entry : LogEntry) :
    InOrder (read ++ [entry]) ↔ InOrder read ∧ Expected read entry.event := by
  obtain ⟨line, event⟩ := entry
  cases event with
  | broadcast seq =>
    simp only [InOrder, History.broadcasts_append, History.deliveriesFrom_append,
      History.broadcasts_broadcast, History.broadcasts_nil, History.deliveriesFrom_broadcast,
      History.deliveriesFrom_nil, List.append_nil, countsUp_append_singleton, Expected]
    exact and_right_comm
  | deliver message =>
    simp only [InOrder, History.broadcasts_append, History.deliveriesFrom_append,
      History.broadcasts_deliver, History.broadcasts_nil, History.deliveriesFrom_deliver,
      History.deliveriesFrom_nil, List.append_nil, Expected, and_assoc, and_congr_right_iff]
    intro _
    constructor
    next =>
      intro all
      have own := all message.sender
      rw [if_pos rfl, countsUp_append_singleton] at own
      refine ⟨fun sender => ?_, own.2⟩
      have here := all sender
      split at here
      next => exact ((countsUp_append_singleton ..).1 here).1
      next => simpa using here
    next =>
      rintro ⟨all, expected⟩ sender
      split
      next same =>
        subst same
        exact (countsUp_append_singleton ..).2 ⟨all _, expected⟩
      next => simpa using all sender

theorem InOrder.of_append {read rest : List LogEntry} (h : InOrder (read ++ rest)) :
    InOrder read := by
  induction rest using List.reverseRecOn with
  | nil => simpa using h
  | append_singleton rest entry ih =>
    rw [← List.append_assoc, inOrder_append_singleton] at h
    exact ih h.1

theorem InOrder.of_isPrefix {before entries : List LogEntry} (h : InOrder entries)
    (reads : before <+: entries) : InOrder before := by
  obtain ⟨rest, rfl⟩ := reads
  exact h.of_append

theorem InOrder.expected {entries before : List LogEntry} {entry : LogEntry}
    (h : InOrder entries) (follows : before ++ [entry] <+: entries) :
    Expected before entry.event :=
  ((inOrder_append_singleton ..).1 (h.of_isPrefix follows)).2

structure Replay.Counts (replay : Replay) (read : List LogEntry) : Prop where
  broadcasts : replay.broadcasts = (History.broadcasts read).length
  deliveries : ∀ sender,
    replay.deliveriesFrom sender = (History.deliveriesFrom sender read).length
  delivered : replay.delivered = (History.deliveries read).length

theorem Replay.counts_start : start.Counts [] where
  broadcasts := rfl
  deliveries := Replay.deliveriesFrom_start
  delivered := rfl

section Step

variable (process : ProcessId) {replay : Replay} {read : List LogEntry}
  (counts : replay.Counts read)

include counts

-- A count of nothing is as good as none.
theorem Replay.Counts.mention (event : Event) : (replay.mention event).Counts read := by
  refine ⟨?_, fun sender => ?_, ?_⟩
  next => cases event <;> exact counts.broadcasts
  next => rw [deliveriesFrom_mention, counts.deliveries]
  next => cases event <;> exact counts.delivered

theorem Replay.accept_of_expected (entry : LogEntry) (expected : Expected read entry.event) :
    ∃ next, replay.accept entry.event = .ok next ∧ next.Counts (read ++ [entry]) := by
  obtain ⟨line, event⟩ := entry
  cases event with
  | broadcast seq =>
    have accepted := (accept_broadcast replay _ seq).2 ⟨counts.broadcasts ▸ expected, rfl⟩
    refine ⟨_, accepted, ?_, fun sender => ?_, ?_⟩
    next => simp [counts.broadcasts]
    next =>
      rw [deliveriesFrom_of_accept_broadcast accepted, counts.deliveries]
      simp
    next => simpa using counts.delivered
  | deliver message =>
    have seq : message.seq = replay.deliveriesFrom message.sender + 1 := by
      rw [counts.deliveries]
      exact expected
    have accepted := (accept_deliver replay _ message).2 ⟨seq, rfl⟩
    refine ⟨_, accepted, ?_, fun sender => ?_, ?_⟩
    next => simpa using counts.broadcasts
    next =>
      rw [deliveriesFrom_of_accept_deliver accepted, counts.deliveries]
      simp only [History.deliveriesFrom_append, History.deliveriesFrom_deliver]
      split <;> simp
    next => simp [counts.delivered]

theorem Replay.accept_of_unexpected {event : Event} (unexpected : ¬ Expected read event) :
    replay.accept event = .error (.after read event) := by
  cases event with
  | broadcast seq =>
    rw [Breach.after, ← counts.broadcasts]
    rw [Expected, ← counts.broadcasts] at unexpected
    exact if_neg unexpected
  | deliver message =>
    rw [Breach.after, ← counts.deliveries]
    rw [Expected, ← counts.deliveries] at unexpected
    exact if_neg unexpected

theorem Replay.step_of_expected (entry : LogEntry) (expected : Expected read entry.event) :
    ∃ next, replay.step process entry = .ok next ∧ next.Counts (read ++ [entry]) := by
  obtain ⟨next, accepted, nextCounts⟩ := accept_of_expected counts entry expected
  refine ⟨next, ?_, nextCounts⟩
  rw [step, accepted]
  rfl

theorem Replay.step_of_unexpected (entry : LogEntry) (unexpected : ¬ Expected read entry.event) :
    replay.step process entry = .error ⟨process, entry.line, .after read entry.event⟩ := by
  rw [step, accept_of_unexpected counts unexpected]
  rfl

end Step

end BroadcastAudit.Fifo
