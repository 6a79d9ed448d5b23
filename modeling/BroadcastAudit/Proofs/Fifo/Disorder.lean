import BroadcastAudit.Proofs.Fifo.Expected
import BroadcastAudit.Proofs.Readings

set_option autoImplicit false

namespace BroadcastAudit.Fifo

structure LeavesOrder (entries read : List LogEntry) (entry : LogEntry) : Prop where
  reads : read ++ [entry] <+: entries
  before : InOrder read
  here : ¬ InOrder (read ++ [entry])

theorem LeavesOrder.unexpected {entries read : List LogEntry} {entry : LogEntry}
    (h : LeavesOrder entries read entry) : ¬ Expected read entry.event :=
  fun expected => h.here ((inOrder_append_singleton ..).2 ⟨h.before, expected⟩)

theorem LeavesOrder.unique {entries read other : List LogEntry} {entry otherEntry : LogEntry}
    (h : LeavesOrder entries read entry) (h' : LeavesOrder entries other otherEntry) :
    other = read ∧ otherEntry = entry :=
  History.eq_of_reads h'.reads h.reads (fun inside => h'.here (h.before.of_isPrefix inside))
    fun inside => h.here (h'.before.of_isPrefix inside)

theorem exists_leavesOrder {entries : List LogEntry} (disorder : ¬ InOrder entries) :
    ∃ read entry, LeavesOrder entries read entry := by
  induction entries using List.reverseRecOn with
  | nil => exact absurd inOrder_nil disorder
  | append_singleton read entry ih =>
    by_cases before : InOrder read
    next => exact ⟨read, entry, List.prefix_refl _, before, disorder⟩
    next =>
      obtain ⟨earlier, first, leaves⟩ := ih before
      exact ⟨earlier, first, leaves.reads.trans (List.prefix_append ..), leaves.before, leaves.here⟩

theorem Replay.Counts.run_append (process : ProcessId) {replay : Replay}
    {read before : List LogEntry}
    (counts : replay.Counts read) (inOrder : InOrder (read ++ before)) :
    ∃ next : Replay, next.Counts (read ++ before) ∧
      ∀ rest, replay.run process (before ++ rest) = next.run process rest := by
  induction before generalizing replay read with
  | nil => exact ⟨replay, by simpa using counts, fun _ => rfl⟩
  | cons entry before ih =>
    have expected : Expected read entry.event := inOrder.expected ⟨before, by simp⟩
    obtain ⟨next, accepted, nextCounts⟩ := step_of_expected process counts entry expected
    obtain ⟨last, lastCounts, runs⟩ := ih nextCounts (by simpa using inOrder)
    refine ⟨last, by simpa using lastCounts, fun rest => ?_⟩
    rw [List.cons_append, run, accepted]
    exact runs rest

theorem InOrder.check_eq (process : ProcessId) {entries : List LogEntry} (h : InOrder entries) :
    check process entries = ⟨none, (History.deliveries entries).length⟩ := by
  obtain ⟨last, counts, runs⟩ := Replay.counts_start.run_append process (by simpa using h)
  have whole := runs []
  rw [List.append_nil] at whole
  rw [check, whole, Replay.run, counts.delivered, List.nil_append]

theorem LeavesOrder.check_eq (process : ProcessId) {entries read : List LogEntry} {entry : LogEntry}
    (h : LeavesOrder entries read entry) :
    check process entries =
      ⟨some ⟨process, entry.line, .after read entry.event⟩, (History.deliveries read).length⟩ := by
  obtain ⟨rest, rfl⟩ := h.reads
  obtain ⟨last, counts, runs⟩ := Replay.counts_start.run_append process (by simpa using h.before)
  have stops := Replay.step_of_unexpected process counts entry (by simpa using h.unexpected)
  have whole := runs (entry :: rest)
  rw [check, List.append_assoc, List.singleton_append, whole, Replay.run, stops, counts.delivered,
    List.nil_append]

/-- A check passes exactly the logs in order, and of any other log it reports the first event that
breaks the order, with what was expected there and the deliveries before it. -/
theorem check_finds_first_disorder (process : ProcessId) (entries : List LogEntry) :
    (check process entries = ⟨none, (History.deliveries entries).length⟩ ↔ InOrder entries) ∧
      (¬ InOrder entries → ∃ read entry, LeavesOrder entries read entry ∧
        (∀ other otherEntry, LeavesOrder entries other otherEntry →
          other = read ∧ otherEntry = entry) ∧
          check process entries =
            ⟨some ⟨process, entry.line, .after read entry.event⟩,
              (History.deliveries read).length⟩) := by
  constructor
  next =>
    refine ⟨fun passed => ?_, fun inOrder => inOrder.check_eq process⟩
    by_contra disorder
    obtain ⟨read, entry, leaves⟩ := exists_leavesOrder disorder
    rw [leaves.check_eq process] at passed
    cases passed
  next =>
    intro disorder
    obtain ⟨read, entry, leaves⟩ := exists_leavesOrder disorder
    exact ⟨read, entry, leaves, fun _ _ => leaves.unique, leaves.check_eq process⟩

def repeatedDelivery : List LogEntry :=
  [⟨1, .deliver ⟨.ofIndex 1, 1⟩⟩, ⟨2, .broadcast 1⟩, ⟨3, .deliver ⟨.ofIndex 2, 1⟩⟩,
    ⟨4, .deliver ⟨.ofIndex 1, 2⟩⟩, ⟨5, .deliver ⟨.ofIndex 1, 2⟩⟩, ⟨6, .broadcast 7⟩]

theorem check_finds_first_disorder_repeated :
    ¬ InOrder repeatedDelivery ∧
      ∃ read entry, LeavesOrder repeatedDelivery read entry ∧
        check (.ofIndex 0) repeatedDelivery =
            ⟨some ⟨.ofIndex 0, entry.line, .after read entry.event⟩,
              (History.deliveries read).length⟩ ∧
          check (.ofIndex 0) repeatedDelivery =
            ⟨some ⟨.ofIndex 0, 5, .delivery (.ofIndex 1) 3 2⟩, 3⟩ := by
  have disorder : ¬ InOrder repeatedDelivery := by decide
  obtain ⟨read, entry, leaves, -, found⟩ :=
    (check_finds_first_disorder (.ofIndex 0) repeatedDelivery).2 disorder
  exact ⟨disorder, read, entry, leaves, found, by decide +kernel⟩

end BroadcastAudit.Fifo
