import Std.Data.ExtTreeMap
import Std.Data.ExtTreeSet

set_option autoImplicit false

namespace BroadcastAudit

structure ProcessId where
  val : Nat
  pos : 0 < val
deriving DecidableEq

namespace ProcessId

theorem ext_val {p q : ProcessId} (h : p.val = q.val) : p = q := by
  cases p; cases q; simpa using h

def ofNat? (n : Nat) : Option ProcessId :=
  if h : 0 < n then some ⟨n, h⟩ else none

def ofIndex (i : Nat) : ProcessId :=
  ⟨i + 1, i.succ_pos⟩

def index (p : ProcessId) : Nat :=
  p.val - 1

def all (count : Nat) : List ProcessId :=
  (List.range count).map ofIndex

instance : ToString ProcessId := ⟨fun p => toString p.val⟩

instance : Ord ProcessId := ⟨compareOn ProcessId.val⟩

instance : Std.TransOrd ProcessId := inferInstanceAs (Std.TransCmp (compareOn ProcessId.val))

instance : Std.LawfulEqOrd ProcessId where
  eq_of_compare h := ext_val (Std.LawfulEqOrd.eq_of_compare (α := Nat) h)

@[simp]
theorem index_ofIndex (i : Nat) : (ofIndex i).index = i := rfl

@[simp]
theorem ofIndex_index (p : ProcessId) : ofIndex p.index = p := by
  apply ext_val
  have := p.pos
  simp only [ofIndex, index]
  omega

@[simp]
theorem val_ofIndex (i : Nat) : (ofIndex i).val = i + 1 := rfl

theorem val_eq (p : ProcessId) : p.val = p.index + 1 := by
  have := p.pos
  simp only [index]
  omega

theorem index_lt_iff (p : ProcessId) (n : Nat) : p.index < n ↔ p.val ≤ n := by
  rw [val_eq]
  omega

theorem index_inj {p q : ProcessId} : p.index = q.index ↔ p = q :=
  ⟨fun h => by rw [← ofIndex_index p, ← ofIndex_index q, h], fun h => by rw [h]⟩

@[simp]
theorem length_all (count : Nat) : (all count).length = count := by
  simp [all]

@[simp]
theorem mem_all (p : ProcessId) (count : Nat) : p ∈ all count ↔ p.val ≤ count := by
  simp only [all, List.mem_map, List.mem_range]
  constructor
  next =>
    rintro ⟨i, lt, rfl⟩
    exact lt
  next => exact fun le => ⟨p.index, (p.index_lt_iff count).2 le, ofIndex_index p⟩

theorem nodup_all (count : Nat) : (all count).Nodup := by
  refine List.pairwise_map.2 (List.nodup_range.imp fun apart same => apart ?_)
  simpa using congrArg index same

theorem ofNat?_eq_some_iff (n : Nat) (p : ProcessId) : ofNat? n = some p ↔ p.val = n := by
  have := p.pos
  simp only [ofNat?, Option.dite_none_right_eq_some, Option.some.injEq]
  constructor
  next =>
    rintro ⟨-, rfl⟩
    rfl
  next =>
    rintro rfl
    exact ⟨p.pos, rfl⟩

end ProcessId

structure Message where
  sender : ProcessId
  seq : Nat
deriving DecidableEq

namespace Message

instance : ToString Message := ⟨fun m => s!"{m.seq} from process {m.sender}"⟩

instance : Ord Message := ⟨compareLex (compareOn sender) (compareOn seq)⟩

instance : Std.TransOrd Message :=
  inferInstanceAs (Std.TransCmp (compareLex (compareOn sender) (compareOn seq)))

instance : Std.LawfulEqOrd Message where
  eq_of_compare {a b} h := by
    obtain ⟨sender, seq⟩ : compare a.sender b.sender = .eq ∧ compare a.seq b.seq = .eq :=
      Ordering.then_eq_eq.1 h
    obtain ⟨_, _⟩ := a
    obtain ⟨_, _⟩ := b
    rw [Message.mk.injEq]
    exact ⟨Std.LawfulEqOrd.eq_of_compare sender, Std.LawfulEqOrd.eq_of_compare seq⟩

end Message

end BroadcastAudit
