import BroadcastAudit.MessageSets
import Mathlib.Data.Finset.Card
import Mathlib.Data.List.Induction

set_option autoImplicit false

namespace BroadcastAudit

namespace Message

def Before (message other : Message) : Prop :=
  message.sender.val < other.sender.val ∨
    message.sender = other.sender ∧ message.seq < other.seq

structure Least (chosen : Message → Prop) (message : Message) : Prop where
  holds : chosen message
  first : ∀ other, chosen other → other = message ∨ message.Before other

theorem Before.ne {message other : Message} (before : message.Before other) :
    message ≠ other := by
  intro same
  rw [same, Before] at before
  omega

end Message

namespace MessageSets

theorem mem_messages (sets : MessageSets) (message : Message) :
    message ∈ sets.messages ↔ sets.contains message = true := by
  cases message with
  | mk sender seq =>
    simp only [messages, toList, List.mem_flatMap, List.mem_map, Prod.exists, Prod.mk.injEq,
      Std.ExtTreeMap.mem_toList_iff_getElem?_eq_some, Message.mk.injEq, contains, seqsOf]
    constructor
    next =>
      rintro ⟨_, _, ⟨_, seqs, found, rfl, rfl⟩, _, member, rfl, rfl⟩
      rw [found]
      exact Std.ExtTreeSet.mem_toList.1 member
    next =>
      intro member
      cases found : sets.bySender[sender]? with
      | none => simp [found] at member
      | some seqs =>
        rw [found] at member
        exact ⟨sender, seqs.toList, ⟨sender, seqs, found, rfl, rfl⟩, seq,
          Std.ExtTreeSet.mem_toList.2 member, rfl, rfl⟩

theorem pairwise_messages (sets : MessageSets) : sets.messages.Pairwise Message.Before := by
  rw [messages, toList, List.flatMap_map, List.pairwise_flatMap]
  constructor
  next =>
    intro (sender, seqs) _
    refine List.pairwise_map.2 (Std.ExtTreeSet.ordered_toList.imp fun lower => ?_)
    exact .inr ⟨rfl, Nat.compare_eq_lt.1 lower⟩
  next =>
    have keys := Std.ExtTreeMap.ordered_keys (t := sets.bySender)
    rw [← Std.ExtTreeMap.map_fst_toList_eq_keys, List.pairwise_map] at keys
    refine keys.imp fun lower message member other otherMember => ?_
    obtain ⟨_, _, rfl⟩ := List.mem_map.1 member
    obtain ⟨_, _, rfl⟩ := List.mem_map.1 otherMember
    exact .inl (Nat.compare_eq_lt.1 lower)

theorem length_messages (sets : MessageSets) : sets.messages.length = sets.size := by
  simp [messages, toList, size, List.flatMap_map, List.length_flatMap, List.sum,
    Std.ExtTreeSet.length_toList]

theorem card_messages (sets : MessageSets) : sets.messages.toFinset.card = sets.size := by
  have nodup : sets.messages.Nodup := sets.pairwise_messages.imp Message.Before.ne
  rw [List.toFinset_card_of_nodup nodup, length_messages]

theorem size_eq_card {sets : MessageSets} {messages : List Message}
    (same : ∀ message, sets.contains message = true ↔ message ∈ messages) :
    sets.size = messages.toFinset.card := by
  rw [← card_messages]
  congr 1
  ext message
  rw [List.mem_toFinset, List.mem_toFinset, mem_messages, same]

theorem size_le_size {sets others : MessageSets}
    (sub : ∀ message, sets.contains message = true → others.contains message = true) :
    sets.size ≤ others.size := by
  rw [← card_messages, ← card_messages]
  apply Finset.card_le_card
  intro message
  rw [List.mem_toFinset, List.mem_toFinset, mem_messages, mem_messages]
  exact sub message

theorem find?_messages_eq_some {sets : MessageSets} {chosen : Message → Bool} {message : Message}
    (found : sets.messages.find? chosen = some message) :
    Message.Least (fun other => sets.contains other = true ∧ chosen other = true) message := by
  obtain ⟨holds, before, after, split, rejected⟩ := List.find?_eq_some_iff_append.1 found
  have sorted := sets.pairwise_messages
  rw [split] at sorted
  constructor
  next => exact ⟨(sets.mem_messages message).1 (List.mem_of_find?_eq_some found), holds⟩
  next =>
    intro other ⟨member, accepted⟩
    rw [← mem_messages, split, List.mem_append, List.mem_cons] at member
    rcases member with earlier | same | later
    next => simpa [accepted] using rejected other earlier
    next => exact .inl same
    next => exact .inr ((List.pairwise_cons.1 (List.pairwise_append.1 sorted).2.1).1 other later)

def ofMessages (messages : List Message) : MessageSets :=
  messages.foldl insert empty

theorem ofMessages_append_singleton (messages : List Message) (last : Message) :
    ofMessages (messages ++ [last]) = (ofMessages messages).insert last := by
  simp [ofMessages]

theorem contains_ofMessages (messages : List Message) (message : Message) :
    (ofMessages messages).contains message = true ↔ message ∈ messages := by
  induction messages using List.reverseRecOn with
  | nil => simp [ofMessages]
  | append_singleton messages last ih =>
    rw [ofMessages_append_singleton, contains_insert, ih, List.mem_append, List.mem_singleton,
      or_comm, eq_comm]

structure Groups (sets : MessageSets) (messages : List Message) : Prop where
  senders : ∀ sender, sender ∈ sets.bySender ↔ ∃ message ∈ messages, message.sender = sender
  seqs : ∀ sender seqs, sets.bySender[sender]? = some seqs →
    ∀ seq, seq ∈ seqs ↔ ⟨sender, seq⟩ ∈ messages

theorem mem_bySender_ofMessages (messages : List Message) (sender : ProcessId) :
    sender ∈ (ofMessages messages).bySender ↔ ∃ message ∈ messages, message.sender = sender := by
  induction messages using List.reverseRecOn with
  | nil => simp [ofMessages, empty]
  | append_singleton messages last ih =>
    rw [ofMessages_append_singleton, insert, Std.ExtTreeMap.mem_insert, Std.compare_eq_iff_eq, ih]
    simp only [List.mem_append, List.mem_singleton, or_and_right, exists_or, exists_eq_left]
    rw [or_comm]

theorem groups_ofMessages (messages : List Message) : (ofMessages messages).Groups messages := by
  refine ⟨mem_bySender_ofMessages messages, fun sender seqs found seq => ?_⟩
  rw [← contains_ofMessages, contains, seqsOf, found]
  exact Std.ExtTreeSet.mem_iff_contains

theorem Groups.unique {sets others : MessageSets} {messages : List Message}
    (groups : sets.Groups messages) (also : others.Groups messages) : sets = others := by
  obtain ⟨bySender⟩ := sets
  obtain ⟨found⟩ := others
  congr 1
  refine Std.ExtTreeMap.ext_getElem? fun sender => ?_
  have occurs : sender ∈ bySender ↔ sender ∈ found :=
    (groups.senders sender).trans (also.senders sender).symm
  by_cases known : sender ∈ bySender
  next =>
    have here := Std.ExtTreeMap.getElem?_eq_some_getElem known
    have there := Std.ExtTreeMap.getElem?_eq_some_getElem (occurs.1 known)
    rw [here, there, Option.some.injEq]
    refine Std.ExtTreeSet.ext_mem fun seq => ?_
    rw [groups.seqs sender _ here, also.seqs sender _ there]
  next =>
    have missing : sender ∉ found := fun member => known (occurs.2 member)
    rw [Std.ExtTreeMap.getElem?_eq_none known, Std.ExtTreeMap.getElem?_eq_none missing]

def ofSenders (seqs : ProcessId → Std.ExtTreeSet Nat) (senders : List ProcessId) : MessageSets :=
  senders.foldl (fun sets sender => sets.assign sender (seqs sender)) empty

variable (seqs : ProcessId → Std.ExtTreeSet Nat)

theorem ofSenders_append_singleton (senders : List ProcessId) (last : ProcessId) :
    ofSenders seqs (senders ++ [last]) = (ofSenders seqs senders).assign last (seqs last) := by
  simp [ofSenders]

theorem contains_ofSenders (senders : List ProcessId) (message : Message) :
    (ofSenders seqs senders).contains message = true ↔
      message.sender ∈ senders ∧ message.seq ∈ seqs message.sender := by
  induction senders using List.reverseRecOn with
  | nil => simp [ofSenders]
  | append_singleton senders last ih =>
    rw [ofSenders_append_singleton, contains, seqsOf_assign, List.mem_append, List.mem_singleton]
    split
    next same => simp [same]
    next other => simpa [contains, Ne.symm other] using ih

theorem mem_bySender_ofSenders (senders : List ProcessId) (sender : ProcessId) :
    sender ∈ (ofSenders seqs senders).bySender ↔ sender ∈ senders := by
  induction senders using List.reverseRecOn with
  | nil => simp [ofSenders, empty]
  | append_singleton senders last ih =>
    rw [ofSenders_append_singleton, assign, Std.ExtTreeMap.mem_insert, Std.compare_eq_iff_eq, ih,
      List.mem_append, List.mem_singleton, or_comm, eq_comm]

theorem senders_ofSenders {senders : List ProcessId} (nodup : senders.Nodup) :
    (ofSenders seqs senders).senders = senders.length := by
  induction senders using List.reverseRecOn with
  | nil => simp [ofSenders, empty, MessageSets.senders]
  | append_singleton others last ih =>
    rw [List.nodup_append_comm, List.singleton_append, List.nodup_cons] at nodup
    have fresh : last ∉ (ofSenders seqs others).bySender := by
      rw [mem_bySender_ofSenders]
      exact nodup.1
    have grown := ih nodup.2
    simp only [MessageSets.senders] at grown
    simp [ofSenders_append_singleton, MessageSets.senders, assign, Std.ExtTreeMap.size_insert,
      fresh, grown]

end MessageSets

end BroadcastAudit
