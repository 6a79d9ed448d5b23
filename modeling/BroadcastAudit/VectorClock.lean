import BroadcastAudit.Failure

set_option autoImplicit false

namespace BroadcastAudit

structure VectorClock where
  entries : List Nat
deriving DecidableEq

inductive ClockOrder where
  | before
  | after
  | equal
  | concurrent
deriving DecidableEq

namespace ClockOrder

def ofCovered : Bool → Bool → ClockOrder
  | true, true => equal
  | true, false => before
  | false, true => after
  | false, false => concurrent

def swap : ClockOrder → ClockOrder
  | before => after
  | after => before
  | equal => equal
  | concurrent => concurrent

def ordering? : ClockOrder → Option Ordering
  | before => some .lt
  | equal => some .eq
  | after => some .gt
  | concurrent => none

def isLT (order : ClockOrder) : Bool :=
  order.ordering?.any Ordering.isLT

def isLE (order : ClockOrder) : Bool :=
  order.ordering?.any Ordering.isLE

def isGT (order : ClockOrder) : Bool :=
  order.ordering?.any Ordering.isGT

def isGE (order : ClockOrder) : Bool :=
  order.ordering?.any Ordering.isGE

end ClockOrder

namespace VectorClock

def zero (processCount : Nat) : VectorClock :=
  ⟨List.replicate processCount 0⟩

def size (clock : VectorClock) : Nat :=
  clock.entries.length

def get (clock : VectorClock) (process : ProcessId) : Except Misuse Nat :=
  match clock.entries[process.index]? with
  | some value => .ok value
  | none => .error .slotOutsideClock

def set (clock : VectorClock) (process : ProcessId) (value : Nat) : Except Misuse VectorClock :=
  if process.index < clock.size then .ok ⟨clock.entries.set process.index value⟩
  else .error .slotOutsideClock

def increment (clock : VectorClock) (process : ProcessId) : Except Misuse VectorClock :=
  if process.index < clock.size then .ok ⟨clock.entries.modify process.index (· + 1)⟩
  else .error .slotOutsideClock

-- `below` says that so far no slot of the first clock was above the second's, and `above` the same
-- the other way round; once neither can be said, the rest does not matter.
def orderFrom (below above : Bool) : List Nat → List Nat → ClockOrder
  | x :: a, y :: b =>
    let below := below && x ≤ y
    let above := above && y ≤ x
    if !below && !above then .concurrent else orderFrom below above a b
  | _, _ => .ofCovered below above

def order (a b : VectorClock) : Except Misuse ClockOrder :=
  if a.size = b.size then .ok (orderFrom true true a.entries b.entries)
  else .error .clocksOfDifferentRuns

def covers (observed required : VectorClock) : Except Misuse Bool :=
  ClockOrder.isLE <$> required.order observed

instance : ToString VectorClock :=
  ⟨fun clock => "[" ++ ", ".intercalate (clock.entries.map toString) ++ "]"⟩

def tagged (clock : VectorClock) : String :=
  s!"VectorClock{clock}"

@[simp]
theorem size_zero (processCount : Nat) : (zero processCount).size = processCount := by
  simp [zero, size]

theorem get_zero (processCount : Nat) (process : ProcessId) (h : process.val ≤ processCount) :
    (zero processCount).get process = .ok 0 := by
  have lt := (process.index_lt_iff processCount).2 h
  simp [get, zero, lt]

theorem set_eq_ok (clock : VectorClock) (process : ProcessId) (value : Nat)
    (h : process.val ≤ clock.size) :
    clock.set process value = .ok ⟨clock.entries.set process.index value⟩ :=
  if_pos ((process.index_lt_iff _).2 h)

theorem size_of_set {clock next : VectorClock} {process : ProcessId} {value : Nat}
    (h : clock.set process value = .ok next) : next.size = clock.size := by
  unfold set at h
  split at h
  next => cases h; simp [size]
  next => cases h

theorem increment_eq_ok (clock : VectorClock) (process : ProcessId)
    (h : process.val ≤ clock.size) :
    clock.increment process = .ok ⟨clock.entries.modify process.index (· + 1)⟩ :=
  if_pos ((process.index_lt_iff _).2 h)

theorem size_of_increment {clock next : VectorClock} {process : ProcessId}
    (h : clock.increment process = .ok next) : next.size = clock.size := by
  unfold increment at h
  split at h
  next => cases h; simp [size]
  next => cases h

theorem get_of_set {clock next : VectorClock} {process : ProcessId} {value : Nat}
    (h : clock.set process value = .ok next) (other : ProcessId) :
    next.get other = if process = other then .ok value else clock.get other := by
  unfold set at h
  split at h
  next lt =>
    cases h
    unfold size at lt
    by_cases same : process = other
    next => simp [get, ← same, lt]
    next =>
      have apart : process.index ≠ other.index := fun eq => same (ProcessId.index_inj.1 eq)
      simp [get, same, apart]
  next => cases h

theorem get_of_increment {clock next : VectorClock} {process : ProcessId}
    (h : clock.increment process = .ok next) (other : ProcessId) :
    next.get other =
      if process = other then (clock.get other).map (· + 1) else clock.get other := by
  unfold increment at h
  split at h
  next lt =>
    cases h
    simp only [get, List.getElem?_modify, ProcessId.index_inj]
    by_cases same : process = other <;> cases clock.entries[other.index]? <;>
      simp [same, Except.map]
  next => cases h

end VectorClock

end BroadcastAudit
