import BroadcastAudit.Fifo.Replay
import BroadcastAudit.History

set_option autoImplicit false

namespace BroadcastAudit.Fifo

def CountsUp (seqs : List Nat) : Prop :=
  seqs = List.range' 1 seqs.length

instance (seqs : List Nat) : Decidable (CountsUp seqs) :=
  inferInstanceAs (Decidable (_ = _))

def InOrder (entries : List LogEntry) : Prop :=
  CountsUp (History.broadcasts entries) ∧
    ∀ sender, CountsUp (History.deliveriesFrom sender entries)

theorem inOrder_iff_mentioned (entries : List LogEntry) :
    InOrder entries ↔ CountsUp (History.broadcasts entries) ∧
      ∀ message ∈ History.deliveries entries,
        CountsUp (History.deliveriesFrom message.sender entries) := by
  refine and_congr_right fun _ => ⟨fun all message _ => all message.sender, fun mentioned => ?_⟩
  intro sender
  cases seqs : History.deliveriesFrom sender entries with
  | nil => rfl
  | cons seq rest =>
    have member : seq ∈ History.deliveriesFrom sender entries := seqs ▸ List.mem_cons_self
    exact seqs ▸ mentioned ⟨sender, seq⟩ ((History.mem_deliveriesFrom ..).1 member)

instance (entries : List LogEntry) : Decidable (InOrder entries) :=
  decidable_of_iff _ (inOrder_iff_mentioned entries).symm

theorem CountsUp.mem_iff {seqs : List Nat} (h : CountsUp seqs) (seq : Nat) :
    seq ∈ seqs ↔ 1 ≤ seq ∧ seq ≤ seqs.length := by
  rw [CountsUp] at h
  rw [h, List.mem_range'_1, List.length_range']
  omega

theorem CountsUp.nodup {seqs : List Nat} (h : CountsUp seqs) : seqs.Nodup := by
  rw [CountsUp] at h
  rw [h]
  exact List.nodup_range' 1

theorem countsUp_append_singleton (seqs : List Nat) (seq : Nat) :
    CountsUp (seqs ++ [seq]) ↔ CountsUp seqs ∧ seq = seqs.length + 1 := by
  simp only [CountsUp, List.length_append, List.length_singleton, List.range'_concat, Nat.one_mul]
  constructor
  next =>
    intro h
    obtain ⟨left, right⟩ := List.append_inj' h rfl
    exact ⟨left, by simpa [Nat.add_comm] using right⟩
  next =>
    rintro ⟨left, rfl⟩
    rw [← left, Nat.add_comm]

theorem inOrder_nil : InOrder [] :=
  ⟨rfl, fun _ => rfl⟩

end BroadcastAudit.Fifo
