import BroadcastAudit.Proofs.Slots

set_option autoImplicit false

namespace BroadcastAudit

namespace ClockOrder

theorem swap_ofCovered (below above : Bool) :
    (ofCovered below above).swap = ofCovered above below := by
  cases below <;> cases above <;> rfl

section

variable (below above : Prop) [Decidable below] [Decidable above]

theorem ofCovered_eq_equal_iff :
    ofCovered (decide below) (decide above) = .equal ↔ below ∧ above := by
  by_cases below <;> by_cases above <;> simp [ofCovered, *]

theorem ofCovered_eq_before_iff :
    ofCovered (decide below) (decide above) = .before ↔ below ∧ ¬ above := by
  by_cases below <;> by_cases above <;> simp [ofCovered, *]

theorem ofCovered_eq_after_iff :
    ofCovered (decide below) (decide above) = .after ↔ above ∧ ¬ below := by
  by_cases below <;> by_cases above <;> simp [ofCovered, *]

theorem ofCovered_eq_concurrent_iff :
    ofCovered (decide below) (decide above) = .concurrent ↔ ¬ below ∧ ¬ above := by
  by_cases below <;> by_cases above <;> simp [ofCovered, *]

end

section

variable (order : ClockOrder)

theorem isLE_iff : order.isLE = true ↔ order = .before ∨ order = .equal := by
  cases order <;> decide

theorem isLT_iff : order.isLT = true ↔ order = .before := by
  cases order <;> decide

theorem isGE_iff : order.isGE = true ↔ order = .after ∨ order = .equal := by
  cases order <;> decide

theorem isGT_iff : order.isGT = true ↔ order = .after := by
  cases order <;> decide

end

end ClockOrder

namespace VectorClock

def DiffersAt (a b : VectorClock) (process : ProcessId) : Prop :=
  a.get process ≠ b.get process

structure Compares (a b : VectorClock) (order : ClockOrder) : Prop where
  equal : order = .equal ↔ ∀ process, a.get process = b.get process
  before : order = .before ↔ b.Covers a ∧ ∃ process, a.DiffersAt b process
  after : order = .after ↔ a.Covers b ∧ ∃ process, a.DiffersAt b process
  concurrent : order = .concurrent ↔
    (∃ process, a.ExceedsAt b process) ∧ ∃ process, b.ExceedsAt a process
  isLE : order.isLE = true ↔ b.Covers a
  isLT : order.isLT = true ↔ b.Covers a ∧ ∃ process, b.ExceedsAt a process
  isGE : order.isGE = true ↔ a.Covers b
  isGT : order.isGT = true ↔ a.Covers b ∧ ∃ process, a.ExceedsAt b process

variable {a b c : VectorClock}

theorem get_eq_iff (sameSize : a.size = b.size) (process : ProcessId) :
    a.get process = b.get process ↔ a.slot process = b.slot process := by
  by_cases inside : process.val ≤ a.size
  next =>
    rw [get_eq_slot a process inside, get_eq_slot b process (sameSize ▸ inside), Except.ok.injEq]
  next =>
    have outside : a.size < process.val := Nat.lt_of_not_le inside
    have alike : b.size < process.val := sameSize ▸ outside
    simp [get_eq_error _ _ outside, get_eq_error _ _ alike, slot_eq_zero _ _ outside,
      slot_eq_zero _ _ alike]

theorem agree_iff (sameSize : a.size = b.size) :
    (∀ process, a.get process = b.get process) ↔ b.Covers a ∧ a.Covers b := by
  simp only [get_eq_iff sameSize, Covers, ← forall_and]
  exact forall_congr' fun process => Nat.le_antisymm_iff

theorem exists_differsAt_iff (sameSize : a.size = b.size) :
    (∃ process, a.DiffersAt b process) ↔ ¬ (b.Covers a ∧ a.Covers b) := by
  rw [← agree_iff sameSize, not_forall]
  rfl

theorem compares_ofCovered (sameSize : a.size = b.size) :
    Compares a b (.ofCovered (decide (b.Covers a)) (decide (a.Covers b))) := by
  have exceeds := not_covers_iff sameSize
  have exceeded := not_covers_iff sameSize.symm
  have differs := exists_differsAt_iff sameSize
  constructor
  case equal => rw [ClockOrder.ofCovered_eq_equal_iff, agree_iff sameSize]
  case before =>
    rw [ClockOrder.ofCovered_eq_before_iff, differs]
    tauto
  case after =>
    rw [ClockOrder.ofCovered_eq_after_iff, differs]
    tauto
  case concurrent => rw [ClockOrder.ofCovered_eq_concurrent_iff, exceeds, exceeded]
  case isLE =>
    rw [ClockOrder.isLE_iff, ClockOrder.ofCovered_eq_before_iff, ClockOrder.ofCovered_eq_equal_iff]
    tauto
  case isLT => rw [ClockOrder.isLT_iff, ClockOrder.ofCovered_eq_before_iff, exceeded]
  case isGE =>
    rw [ClockOrder.isGE_iff, ClockOrder.ofCovered_eq_after_iff, ClockOrder.ofCovered_eq_equal_iff]
    tauto
  case isGT => rw [ClockOrder.isGT_iff, ClockOrder.ofCovered_eq_after_iff, exceeds]

theorem covers_eq_true_iff (sameSize : a.size = b.size) :
    b.covers a = .ok true ↔ b.Covers a := by
  rw [covers_eq_ok b a sameSize, Except.ok.injEq, decide_eq_true_iff]

theorem eq_iff_covers (sameSize : a.size = b.size) :
    a = b ↔ b.Covers a ∧ a.Covers b := by
  rw [← agree_iff sameSize]
  constructor
  next => exact fun same process => same ▸ rfl
  next => exact fun agree => eq_of_get sameSize fun process _ => agree process

theorem order_swap {answer : ClockOrder}
    (compared : a.order b = .ok answer) : b.order a = .ok answer.swap := by
  by_cases sameSize : a.size = b.size
  next =>
    rw [order_eq_ofCovered sameSize, Except.ok.injEq] at compared
    rw [order_eq_ofCovered sameSize.symm, ← compared, ClockOrder.swap_ofCovered]
  next => simp [order, sameSize] at compared

/-- Two clocks of one size always have an order, which says how their slots compare; the order the
other way round is its mirror image. Clocks that cover each other are the same, and of three clocks
the last covers the first where each covers the one before it. -/
theorem order_slot_by_slot (sameSize : a.size = b.size) (nextSize : b.size = c.size) :
    (∃ order, a.order b = .ok order ∧ b.order a = .ok order.swap ∧ a.Compares b order) ∧
      (a = b ↔ b.covers a = .ok true ∧ a.covers b = .ok true) ∧
      a.covers a = .ok true ∧
      (b.covers a = .ok true → c.covers b = .ok true → c.covers a = .ok true) := by
  rw [covers_eq_true_iff sameSize, covers_eq_true_iff sameSize.symm, covers_eq_true_iff nextSize,
    covers_eq_true_iff (sameSize.trans nextSize), covers_eq_true_iff rfl]
  refine ⟨⟨_, order_eq_ofCovered sameSize, ?_, compares_ofCovered sameSize⟩,
    eq_iff_covers sameSize, fun process => Nat.le_refl _, fun lower upper => upper.trans lower⟩
  rw [order_eq_ofCovered sameSize.symm, ClockOrder.swap_ofCovered]

theorem order_slot_by_slot_join :
    size ⟨[2, 1, 0]⟩ = size ⟨[1, 3, 0]⟩ ∧ size ⟨[1, 3, 0]⟩ = size ⟨[2, 3, 0]⟩ ∧
      order ⟨[2, 1, 0]⟩ ⟨[1, 3, 0]⟩ = .ok .concurrent ∧
        (∃ process, ExceedsAt ⟨[2, 1, 0]⟩ ⟨[1, 3, 0]⟩ process) ∧
          (∃ process, ExceedsAt ⟨[1, 3, 0]⟩ ⟨[2, 1, 0]⟩ process) ∧
            order ⟨[1, 3, 0]⟩ ⟨[2, 3, 0]⟩ = .ok .before ∧
              ∃ process, DiffersAt ⟨[1, 3, 0]⟩ ⟨[2, 3, 0]⟩ process := by
  have sameSize : size ⟨[2, 1, 0]⟩ = size ⟨[1, 3, 0]⟩ := rfl
  have nextSize : size ⟨[1, 3, 0]⟩ = size ⟨[2, 3, 0]⟩ := rfl
  have apart : order ⟨[2, 1, 0]⟩ ⟨[1, 3, 0]⟩ = .ok .concurrent := by decide
  have below : order ⟨[1, 3, 0]⟩ ⟨[2, 3, 0]⟩ = .ok .before := by decide
  obtain ⟨⟨_, first, -, apartAt⟩, -⟩ := order_slot_by_slot sameSize nextSize
  obtain ⟨⟨_, second, -, belowAt⟩, -⟩ := order_slot_by_slot nextSize rfl
  rw [apart, Except.ok.injEq] at first
  rw [below, Except.ok.injEq] at second
  have exceeds := apartAt.concurrent.1 first.symm
  exact ⟨sameSize, nextSize, apart, exceeds.1, exceeds.2, below, (belowAt.before.1 second.symm).2⟩

end VectorClock

end BroadcastAudit
