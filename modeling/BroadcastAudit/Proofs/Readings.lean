import BroadcastAudit.History
import Mathlib.Data.List.Basic

set_option autoImplicit false

namespace BroadcastAudit.History

variable {entries read : List LogEntry} {entry : LogEntry}

theorem isPrefix_of_read (reads : read ++ [entry] <+: entries) : read <+: entries :=
  (List.prefix_append _ _).trans reads

theorem isPrefix_of_length_lt {other : List LogEntry} (reads : read ++ [entry] <+: entries)
    (otherReads : other <+: entries) (shorter : read.length < other.length) :
    read ++ [entry] <+: other := by
  refine List.prefix_of_prefix_length_le reads otherReads ?_
  rwa [List.length_append, List.length_singleton]

theorem eq_of_reads {other : List LogEntry} {otherEntry : LogEntry}
    (reads : read ++ [entry] <+: entries) (otherReads : other ++ [otherEntry] <+: entries)
    (notBefore : ¬ read ++ [entry] <+: other) (notAfter : ¬ other ++ [otherEntry] <+: read) :
    read = other ∧ entry = otherEntry := by
  have sameLength : read.length = other.length := by
    rcases Nat.lt_trichotomy read.length other.length with shorter | same | longer
    next =>
      exact absurd (isPrefix_of_length_lt reads (isPrefix_of_read otherReads) shorter) notBefore
    next => exact same
    next =>
      exact absurd (isPrefix_of_length_lt otherReads (isPrefix_of_read reads) longer) notAfter
  have inside := List.prefix_of_prefix_length_le reads otherReads (by simp [sameLength])
  exact List.append_singleton_inj.1 (inside.eq_of_length (by simp [sameLength]))

theorem exists_read (member : entry ∈ entries) : ∃ read, read ++ [entry] <+: entries := by
  obtain ⟨read, rest, rfl⟩ := List.append_of_mem member
  exact ⟨read, rest, by simp⟩

theorem mem_deliveries_iff (entries : List LogEntry) (message : Message) :
    message ∈ deliveries entries ↔ ∃ line, ⟨line, .deliver message⟩ ∈ entries := by
  simp only [deliveries, List.mem_filterMap]
  constructor
  next =>
    rintro ⟨⟨line, seq | delivered⟩, member, eq⟩
    next => cases eq
    next =>
      cases eq
      exact ⟨line, member⟩
  next => exact fun ⟨line, member⟩ => ⟨_, member, rfl⟩

theorem mem_broadcasts_iff (entries : List LogEntry) (seq : Nat) :
    seq ∈ broadcasts entries ↔ ∃ line, ⟨line, .broadcast seq⟩ ∈ entries := by
  simp only [broadcasts, List.mem_filterMap]
  constructor
  next =>
    rintro ⟨⟨line, number | delivered⟩, member, eq⟩
    next =>
      cases eq
      exact ⟨line, member⟩
    next => cases eq
  next => exact fun ⟨line, member⟩ => ⟨_, member, rfl⟩

theorem mem_deliveries_of_isPrefix (reads : read <+: entries) {message : Message}
    (member : message ∈ deliveries read) : message ∈ deliveries entries := by
  obtain ⟨rest, rfl⟩ := reads
  simp [member]

theorem mem_deliveries_of_read {line : Nat} {message : Message}
    (reads : read ++ [⟨line, .deliver message⟩] <+: entries) : message ∈ deliveries entries :=
  mem_deliveries_of_isPrefix reads (by simp)

theorem mem_broadcasts_of_read {line seq : Nat}
    (reads : read ++ [⟨line, .broadcast seq⟩] <+: entries) : seq ∈ broadcasts entries := by
  obtain ⟨rest, rfl⟩ := reads
  simp

theorem exists_read_delivery {message : Message} (member : message ∈ deliveries entries) :
    ∃ read line, read ++ [⟨line, .deliver message⟩] <+: entries := by
  obtain ⟨line, inside⟩ := (mem_deliveries_iff ..).1 member
  obtain ⟨read, reads⟩ := exists_read inside
  exact ⟨read, line, reads⟩

theorem exists_read_broadcast {seq : Nat} (member : seq ∈ broadcasts entries) :
    ∃ read line, read ++ [⟨line, .broadcast seq⟩] <+: entries := by
  obtain ⟨line, inside⟩ := (mem_broadcasts_iff ..).1 member
  obtain ⟨read, reads⟩ := exists_read inside
  exact ⟨read, line, reads⟩

end BroadcastAudit.History
