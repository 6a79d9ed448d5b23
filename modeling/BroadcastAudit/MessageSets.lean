import BroadcastAudit.Process

set_option autoImplicit false

namespace BroadcastAudit

structure MessageSets where
  bySender : Std.ExtTreeMap ProcessId (Std.ExtTreeSet Nat)

namespace MessageSets

def empty : MessageSets := ⟨∅⟩

def seqsOf (sets : MessageSets) (sender : ProcessId) : Std.ExtTreeSet Nat :=
  sets.bySender[sender]?.getD ∅

def contains (sets : MessageSets) (message : Message) : Bool :=
  (sets.seqsOf message.sender).contains message.seq

def insert (sets : MessageSets) (message : Message) : MessageSets :=
  ⟨sets.bySender.insert message.sender ((sets.seqsOf message.sender).insert message.seq)⟩

def assign (sets : MessageSets) (sender : ProcessId) (seqs : Std.ExtTreeSet Nat) : MessageSets :=
  ⟨sets.bySender.insert sender seqs⟩

def senders (sets : MessageSets) : Nat :=
  sets.bySender.size

def toList (sets : MessageSets) : List (ProcessId × List Nat) :=
  sets.bySender.toList.map fun (sender, seqs) => (sender, seqs.toList)

def messages (sets : MessageSets) : List Message :=
  sets.toList.flatMap fun (sender, seqs) => seqs.map (⟨sender, ·⟩)

def size (sets : MessageSets) : Nat :=
  (sets.bySender.toList.map fun (_, seqs) => seqs.size).foldr (· + ·) 0

@[simp]
theorem contains_empty (message : Message) : empty.contains message = false := by
  simp [contains, seqsOf, empty]

theorem bySender_insert (sets : MessageSets) (message : Message) (sender : ProcessId) :
    (sets.insert message).bySender[sender]? =
      if message.sender = sender then some ((sets.seqsOf message.sender).insert message.seq)
      else sets.bySender[sender]? := by
  simp only [insert, Std.ExtTreeMap.getElem?_insert, Std.compare_eq_iff_eq]

theorem seqsOf_insert (sets : MessageSets) (message : Message) (sender : ProcessId) :
    (sets.insert message).seqsOf sender =
      if message.sender = sender then (sets.seqsOf sender).insert message.seq
      else sets.seqsOf sender := by
  rw [seqsOf, bySender_insert]
  split
  next h => rw [h]; rfl
  next => rfl

theorem contains_insert (sets : MessageSets) (message other : Message) :
    (sets.insert message).contains other = true ↔
      message = other ∨ sets.contains other = true := by
  cases message; cases other
  simp only [contains, seqsOf_insert, Message.mk.injEq]
  split <;> simp_all [Std.ExtTreeSet.contains_insert]

theorem seqsOf_assign (sets : MessageSets) (sender other : ProcessId)
    (seqs : Std.ExtTreeSet Nat) :
    (sets.assign sender seqs).seqsOf other =
      if sender = other then seqs else sets.seqsOf other := by
  simp only [seqsOf, assign, Std.ExtTreeMap.getElem?_insert, Std.compare_eq_iff_eq]
  split <;> rfl

end MessageSets

end BroadcastAudit
