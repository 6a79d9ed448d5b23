import BroadcastAudit.VectorClock
import Mathlib.Logic.Function.Basic
import Mathlib.Data.List.Basic

set_option autoImplicit false

namespace BroadcastAudit.VectorClock

def slot (clock : VectorClock) (process : ProcessId) : Nat :=
  clock.entries[process.index]?.getD 0

def ofSlots (processCount : Nat) (slots : ProcessId → Nat) : VectorClock :=
  ⟨(ProcessId.all processCount).map slots⟩

def Covers (observed required : VectorClock) : Prop :=
  ∀ process, required.slot process ≤ observed.slot process

def ExceedsAt (upper lower : VectorClock) (process : ProcessId) : Prop :=
  ∃ high low, upper.get process = .ok high ∧ lower.get process = .ok low ∧ low < high

theorem Covers.trans {a b c : VectorClock} (upper : a.Covers b) (lower : b.Covers c) :
    a.Covers c :=
  fun process => Nat.le_trans (lower process) (upper process)

theorem getElem?_entries_eq_none (clock : VectorClock) (process : ProcessId)
    (outside : clock.size < process.val) : clock.entries[process.index]? = none := by
  have index := process.val_eq
  apply List.getElem?_eq_none
  unfold size at outside
  omega

theorem slot_eq_zero (clock : VectorClock) (process : ProcessId)
    (outside : clock.size < process.val) : clock.slot process = 0 := by
  simp [slot, getElem?_entries_eq_none clock process outside]

theorem get_eq_error (clock : VectorClock) (process : ProcessId)
    (outside : clock.size < process.val) : clock.get process = .error .slotOutsideClock := by
  simp [get, getElem?_entries_eq_none clock process outside]

theorem covers_iff_of_size (observed required : VectorClock) :
    observed.Covers required ↔
      ∀ process ∈ ProcessId.all required.size,
        required.slot process ≤ observed.slot process := by
  constructor
  next => exact fun all process _ => all process
  next =>
    intro all process
    by_cases inside : process.val ≤ required.size
    next => exact all process ((ProcessId.mem_all ..).2 inside)
    next =>
      rw [slot_eq_zero required process (by omega)]
      exact Nat.zero_le _

instance (observed required : VectorClock) : Decidable (observed.Covers required) :=
  decidable_of_iff _ (covers_iff_of_size observed required).symm

theorem get_eq_slot (clock : VectorClock) (process : ProcessId)
    (inside : process.val ≤ clock.size) : clock.get process = .ok (clock.slot process) := by
  have lt : process.index < clock.entries.length := (process.index_lt_iff _).2 inside
  simp [get, slot, lt]

theorem le_size_of_get {clock : VectorClock} {process : ProcessId} {value : Nat}
    (found : clock.get process = .ok value) : process.val ≤ clock.size := by
  unfold get at found
  split at found
  next here => exact (process.index_lt_iff _).1 (List.getElem?_eq_some_iff.1 here).1
  next => cases found

theorem eq_of_get {a b : VectorClock} (sameSize : a.size = b.size)
    (same : ∀ process : ProcessId, process.val ≤ a.size → a.get process = b.get process) :
    a = b := by
  obtain ⟨entries⟩ := a
  obtain ⟨others⟩ := b
  rw [VectorClock.mk.injEq]
  refine List.ext_getElem sameSize fun i left right => ?_
  have here := same (.ofIndex i) left
  simpa [get, left, right] using here

theorem exceedsAt_iff {upper lower : VectorClock} (sameSize : upper.size = lower.size)
    (process : ProcessId) :
    upper.ExceedsAt lower process ↔ lower.slot process < upper.slot process := by
  unfold ExceedsAt
  by_cases inside : process.val ≤ upper.size
  next =>
    have lowerInside : process.val ≤ lower.size := sameSize ▸ inside
    simp [get_eq_slot _ _ inside, get_eq_slot _ _ lowerInside]
  next =>
    have outside := Nat.lt_of_not_le inside
    simp [get_eq_error upper process outside, slot_eq_zero upper process outside]

theorem not_covers_iff {observed required : VectorClock}
    (sameSize : required.size = observed.size) :
    ¬ observed.Covers required ↔ ∃ process, required.ExceedsAt observed process := by
  simp only [Covers, not_forall, Nat.not_le, exceedsAt_iff sameSize]

def slotsCovered (a b : List Nat) : Bool :=
  (a.zip b).all fun (x, y) => x ≤ y

theorem orderFrom_eq_ofCovered (below above : Bool) (a b : List Nat) :
    orderFrom below above a b =
      .ofCovered (below && slotsCovered a b) (above && slotsCovered b a) := by
  induction a generalizing below above b with
  | nil => cases b <;> simp [orderFrom, slotsCovered]
  | cons x a ih =>
    cases b with
    | nil => simp [orderFrom, slotsCovered]
    | cons y b =>
      have first : slotsCovered (x :: a) (y :: b) = (decide (x ≤ y) && slotsCovered a b) := rfl
      have second : slotsCovered (y :: b) (x :: a) = (decide (y ≤ x) && slotsCovered b a) := rfl
      simp only [orderFrom, first, second, ← Bool.and_assoc]
      split
      next neither =>
        -- Later slots cannot undo that each clock is above the other somewhere.
        rw [Bool.and_eq_true, Bool.not_eq_true', Bool.not_eq_true'] at neither
        rw [neither.1, neither.2]
        rfl
      next => exact ih _ _ b

theorem slotsCovered_iff (a b : List Nat) (h : a.length = b.length) :
    slotsCovered a b = true ↔ ∀ i : Nat, a[i]?.getD 0 ≤ b[i]?.getD 0 := by
  induction a generalizing b with
  | nil => cases b <;> simp_all [slotsCovered]
  | cons x a ih =>
    cases b with
    | nil => simp at h
    | cons y b =>
      have rest := ih b (by simpa using h)
      simp only [slotsCovered, List.zip_cons_cons, List.all_cons, Bool.and_eq_true,
        decide_eq_true_eq] at rest ⊢
      rw [rest]
      constructor
      next =>
        rintro ⟨head, tail⟩ (_ | i)
        · simpa using head
        · simpa using tail i
      next => exact fun all => ⟨by simpa using all 0, fun i => by simpa using all (i + 1)⟩

theorem slotsCovered_iff_covers (a b : VectorClock) (sameSize : a.size = b.size) :
    slotsCovered a.entries b.entries = true ↔ b.Covers a := by
  rw [slotsCovered_iff a.entries b.entries sameSize]
  constructor
  next => exact fun all process => all process.index
  next => exact fun all i => by simpa [slot] using all (.ofIndex i)

theorem order_eq_ofCovered {a b : VectorClock} (sameSize : a.size = b.size) :
    a.order b = .ok (.ofCovered (decide (b.Covers a)) (decide (a.Covers b))) := by
  have below := slotsCovered_iff_covers a b sameSize
  have above := slotsCovered_iff_covers b a sameSize.symm
  rw [order, if_pos sameSize, orderFrom_eq_ofCovered, Bool.true_and, Bool.true_and]
  simp only [← below, ← above, Bool.decide_eq_true]

theorem covers_eq_ok (observed required : VectorClock) (sameSize : required.size = observed.size) :
    observed.covers required = .ok (decide (observed.Covers required)) := by
  rw [covers, order_eq_ofCovered sameSize]
  cases decide (observed.Covers required) <;> cases decide (required.Covers observed) <;> rfl

theorem order_eq_before_iff (a b : VectorClock) :
    a.order b = .ok .before ↔ a.size = b.size ∧ b.Covers a ∧ ¬ a.Covers b := by
  by_cases sameSize : a.size = b.size
  next =>
    rw [order_eq_ofCovered sameSize]
    by_cases below : b.Covers a <;> by_cases above : a.Covers b <;>
      simp [ClockOrder.ofCovered, below, above, sameSize]
  next => simp [order, sameSize]

@[simp]
theorem size_ofSlots (processCount : Nat) (slots : ProcessId → Nat) :
    (ofSlots processCount slots).size = processCount := by
  simp [size, ofSlots]

theorem slot_ofSlots (processCount : Nat) (slots : ProcessId → Nat) (process : ProcessId) :
    (ofSlots processCount slots).slot process =
      if process.val ≤ processCount then slots process else 0 := by
  split
  next inside =>
    have lt := (process.index_lt_iff _).2 inside
    simp [slot, ofSlots, ProcessId.all, lt]
  next outside =>
    apply slot_eq_zero
    rw [size_ofSlots]
    omega

theorem zero_eq_ofSlots (processCount : Nat) :
    zero processCount = ofSlots processCount fun _ => 0 := by
  simp [zero, ofSlots]

theorem entries_ofSlots_set (processCount : Nat) (slots : ProcessId → Nat) (process : ProcessId)
    (value : Nat) :
    (ofSlots processCount slots).entries.set process.index value =
      (ofSlots processCount (Function.update slots process value)).entries := by
  apply List.ext_getElem
  next => simp [ofSlots]
  next =>
    intro i _ _
    by_cases same : process.index = i
    next =>
      subst same
      simp [ofSlots, ProcessId.all]
    next =>
      have apart : ProcessId.ofIndex i ≠ process := by
        rintro rfl
        exact same (ProcessId.index_ofIndex i)
      simp [ofSlots, ProcessId.all, same, apart]

theorem set_ofSlots (processCount : Nat) (slots : ProcessId → Nat) (process : ProcessId)
    (value : Nat) (inside : process.val ≤ processCount) :
    (ofSlots processCount slots).set process value =
      .ok (ofSlots processCount (Function.update slots process value)) := by
  rw [set_eq_ok _ _ _ (by simpa using inside), entries_ofSlots_set]

theorem increment_ofSlots (processCount : Nat) (slots : ProcessId → Nat) (process : ProcessId)
    (inside : process.val ≤ processCount) :
    (ofSlots processCount slots).increment process =
      .ok (ofSlots processCount (Function.update slots process (slots process + 1))) := by
  have lt := (process.index_lt_iff _).2 inside
  have value : (ofSlots processCount slots).entries[process.index]? = some (slots process) := by
    simp [ofSlots, ProcessId.all, lt]
  rw [increment_eq_ok _ _ (by simpa using inside), List.modify_eq_set_getElem?, value]
  simp only [Option.map_eq_map, Option.map_some, Option.getD_some, entries_ofSlots_set]

end BroadcastAudit.VectorClock
