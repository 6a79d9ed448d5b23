import BroadcastAudit.Event

set_option autoImplicit false

namespace BroadcastAudit.Fifo

inductive Breach where
  | broadcast (expected got : Nat)
  | delivery (sender : ProcessId) (expected got : Nat)
deriving DecidableEq

def Breach.text : Breach → String
  | broadcast expected got =>
    s!"Messages broadcast out of order. Expected message {expected} but broadcast message {got}"
  | delivery sender expected got =>
    s!"Message delivered out of order. Expected message {expected} from process {sender}, " ++
      s!"but delivered message {got}"

structure Violation where
  process : ProcessId
  line : Nat
  breach : Breach
deriving DecidableEq

def Violation.text (violation : Violation) : String :=
  s!"File {violation.process}.output, Line {violation.line}: {violation.breach.text}"

structure Replay where
  broadcasts : Nat
  deliveries : Std.ExtTreeMap ProcessId Nat
  delivered : Nat

namespace Replay

def start : Replay := ⟨0, ∅, 0⟩

def deliveriesFrom (replay : Replay) (sender : ProcessId) : Nat :=
  replay.deliveries[sender]?.getD 0

def accept (replay : Replay) : Event → Except Breach Replay
  | .broadcast seq =>
    let expected := replay.broadcasts + 1
    if seq = expected then .ok { replay with broadcasts := expected }
    else .error (.broadcast expected seq)
  | .deliver message =>
    let expected := replay.deliveriesFrom message.sender + 1
    if message.seq = expected then
      .ok { replay with
        deliveries := replay.deliveries.insert message.sender expected
        delivered := replay.delivered + 1 }
    else .error (.delivery message.sender expected message.seq)

def step (process : ProcessId) (replay : Replay) (entry : LogEntry) :
    Except Violation Replay :=
  (replay.accept entry.event).mapError fun breach => ⟨process, entry.line, breach⟩

end Replay

structure Outcome where
  violation : Option Violation
  delivered : Nat
deriving DecidableEq

def Replay.run (process : ProcessId) (replay : Replay) : List LogEntry → Outcome
  | [] => ⟨none, replay.delivered⟩
  | entry :: rest =>
    match replay.step process entry with
    | .ok next => next.run process rest
    | .error violation => ⟨some violation, replay.delivered⟩

def check (process : ProcessId) (entries : List LogEntry) : Outcome :=
  Replay.start.run process entries

-- A sender has a count from the first delivery that names it, also if that delivery is refused.
def Replay.mention (replay : Replay) : Event → Replay
  | .broadcast _ => replay
  | .deliver message =>
    { replay with deliveries := replay.deliveries.insertIfNew message.sender 0 }

def Replay.offer (process : ProcessId) (entry : LogEntry) : StateM Replay Outcome :=
  fun replay =>
    match replay.step process entry with
    | .ok next => (⟨none, next.delivered⟩, next)
    | .error violation => (⟨some violation, replay.delivered⟩, replay.mention entry.event)

def outcomes (process : ProcessId) (entries : List LogEntry) : List Outcome :=
  ((entries.mapM (Replay.offer process)).run Replay.start).1

theorem Replay.deliveriesFrom_start (sender : ProcessId) : start.deliveriesFrom sender = 0 := by
  simp [deliveriesFrom, start]

theorem Replay.deliveriesFrom_mention (replay : Replay) (event : Event) (sender : ProcessId) :
    (replay.mention event).deliveriesFrom sender = replay.deliveriesFrom sender := by
  cases event with
  | broadcast seq => rfl
  | deliver message =>
    simp only [mention, deliveriesFrom, Std.ExtTreeMap.getElem?_insertIfNew,
      Std.compare_eq_iff_eq]
    split
    next fresh =>
      obtain ⟨rfl, unknown⟩ := fresh
      simp [unknown]
    next => rfl

theorem Replay.accept_broadcast (replay next : Replay) (seq : Nat) :
    replay.accept (.broadcast seq) = .ok next ↔
      seq = replay.broadcasts + 1 ∧ { replay with broadcasts := replay.broadcasts + 1 } = next := by
  simp only [accept]
  split <;> simp_all

theorem Replay.accept_deliver (replay next : Replay) (message : Message) :
    replay.accept (.deliver message) = .ok next ↔
      message.seq = replay.deliveriesFrom message.sender + 1 ∧
        { replay with
          deliveries := replay.deliveries.insert message.sender
            (replay.deliveriesFrom message.sender + 1)
          delivered := replay.delivered + 1 } = next := by
  simp only [accept]
  split <;> simp_all

theorem Replay.deliveriesFrom_of_accept_broadcast {replay next : Replay} {seq : Nat}
    (h : replay.accept (.broadcast seq) = .ok next) (sender : ProcessId) :
    next.deliveriesFrom sender = replay.deliveriesFrom sender := by
  obtain ⟨-, rfl⟩ := (accept_broadcast ..).1 h
  rfl

theorem Replay.deliveriesFrom_of_accept_deliver {replay next : Replay} {message : Message}
    (h : replay.accept (.deliver message) = .ok next) (sender : ProcessId) :
    next.deliveriesFrom sender =
      if message.sender = sender then replay.deliveriesFrom sender + 1
      else replay.deliveriesFrom sender := by
  simp only [accept] at h
  split at h
  next =>
    cases h
    simp only [deliveriesFrom, Std.ExtTreeMap.getElem?_insert, Std.compare_eq_iff_eq]
    split
    next same => rw [same]; rfl
    next => rfl
  next => cases h

end BroadcastAudit.Fifo
