import BroadcastAudit.Proofs.Fifo.Disorder

set_option autoImplicit false

namespace BroadcastAudit.Fifo

def answers (process : ProcessId) (entries : List LogEntry) : List (LogEntry × Outcome) :=
  entries.zip (outcomes process entries)

def accepted (answered : List (LogEntry × Outcome)) : List LogEntry :=
  (answered.filter (·.2.violation.isNone)).map Prod.fst

def replayAfter (process : ProcessId) (entries : List LogEntry) : Replay :=
  ((entries.mapM (Replay.offer process)).run Replay.start).2

structure LeavesOutRefused (remaining whole : List (LogEntry × Outcome)) : Prop where
  sublist : remaining.Sublist whole
  same : accepted remaining = accepted whole

def keep (kept : List LogEntry) (entry : LogEntry) : List LogEntry :=
  if Expected kept entry.event then kept ++ [entry] else kept

def answerAfter (process : ProcessId) (kept : List LogEntry) (entry : LogEntry) : Outcome :=
  if Expected kept entry.event then ⟨none, (History.deliveries (kept ++ [entry])).length⟩
  else ⟨some ⟨process, entry.line, .after kept entry.event⟩, (History.deliveries kept).length⟩

def answersAfter (process : ProcessId) (kept : List LogEntry) :
    List LogEntry → List (LogEntry × Outcome)
  | [] => []
  | entry :: rest =>
    (entry, answerAfter process kept entry) :: answersAfter process (keep kept entry) rest

theorem inOrder_keep {kept : List LogEntry} (h : InOrder kept) (entry : LogEntry) :
    InOrder (keep kept entry) := by
  unfold keep
  split
  next expected => exact (inOrder_append_singleton ..).2 ⟨h, expected⟩
  next => exact h

theorem inOrder_foldl_keep {kept : List LogEntry} (h : InOrder kept) (entries : List LogEntry) :
    InOrder (entries.foldl keep kept) := by
  induction entries generalizing kept with
  | nil => exact h
  | cons entry rest ih => exact ih (inOrder_keep h entry)

section Accepted

variable (entry : LogEntry) (outcome : Outcome) (rest : List (LogEntry × Outcome))

theorem accepted_cons_of_accepted (passed : outcome.violation = none) :
    accepted ((entry, outcome) :: rest) = entry :: accepted rest := by
  simp [accepted, passed]

theorem accepted_cons_of_refused (refused : outcome.violation ≠ none) :
    accepted ((entry, outcome) :: rest) = accepted rest := by
  simp [accepted, refused]

end Accepted

theorem accepted_cons_inj {first : LogEntry × Outcome} {rest others : List (LogEntry × Outcome)}
    (same : accepted (first :: rest) = accepted (first :: others)) :
    accepted rest = accepted others := by
  obtain ⟨entry, outcome⟩ := first
  by_cases passed : outcome.violation = none
  next => simpa only [accepted_cons_of_accepted _ _ _ passed, List.cons.injEq, true_and] using same
  next => simpa only [accepted_cons_of_refused _ _ _ passed] using same

theorem accepted_sublist {remaining whole : List (LogEntry × Outcome)}
    (sublist : remaining.Sublist whole) : (accepted remaining).Sublist (accepted whole) :=
  (sublist.filter _).map _

theorem refused_of_leftOut {remaining rest : List (LogEntry × Outcome)} {entry : LogEntry}
    {outcome : Outcome} (sublist : remaining.Sublist rest)
    (same : accepted remaining = accepted ((entry, outcome) :: rest)) :
    outcome.violation ≠ none := by
  intro passed
  rw [accepted_cons_of_accepted _ _ _ passed] at same
  have shorter := (accepted_sublist sublist).length_le
  rw [same, List.length_cons] at shorter
  omega

theorem run_mapM_cons {α β σ : Type} (f : α → StateM σ β) (x : α) (xs : List α) (state : σ) :
    ((x :: xs).mapM f).run state =
      (((f x).run state).1 :: ((xs.mapM f).run ((f x).run state).2).1,
        ((xs.mapM f).run ((f x).run state).2).2) := by
  rw [List.mapM_cons]
  rfl

section Answers

variable (process : ProcessId)

theorem answerAfter_of_expected {kept : List LogEntry} {entry : LogEntry}
    (expected : Expected kept entry.event) :
    (answerAfter process kept entry).violation = none ∧ keep kept entry = kept ++ [entry] := by
  simp [answerAfter, keep, expected]

theorem answerAfter_of_unexpected {kept : List LogEntry} {entry : LogEntry}
    (unexpected : ¬ Expected kept entry.event) :
    (answerAfter process kept entry).violation ≠ none ∧ keep kept entry = kept := by
  simp [answerAfter, keep, unexpected]

theorem append_accepted_answersAfter (kept entries : List LogEntry) :
    kept ++ accepted (answersAfter process kept entries) = entries.foldl keep kept := by
  induction entries generalizing kept with
  | nil => simp [answersAfter, accepted]
  | cons entry rest ih =>
    rw [List.foldl_cons, ← ih, answersAfter]
    by_cases expected : Expected kept entry.event
    next =>
      obtain ⟨passed, grown⟩ := answerAfter_of_expected process expected
      rw [accepted_cons_of_accepted _ _ _ passed, grown, List.append_assoc, List.singleton_append]
    next =>
      obtain ⟨refused, same⟩ := answerAfter_of_unexpected process expected
      rw [accepted_cons_of_refused _ _ _ refused, same]

theorem Replay.offer_eq {replay : Replay} {kept : List LogEntry} (counts : replay.Counts kept)
    (entry : LogEntry) :
    ∃ next : Replay, offer process entry replay = (answerAfter process kept entry, next) ∧
      next.Counts (keep kept entry) := by
  by_cases expected : Expected kept entry.event
  next =>
    obtain ⟨next, accepted, nextCounts⟩ := step_of_expected process counts entry expected
    refine ⟨next, ?_, ?_⟩
    next => simp only [offer, accepted, answerAfter, if_pos expected, nextCounts.delivered]
    next => rwa [keep, if_pos expected]
  next =>
    have refused := step_of_unexpected process counts entry expected
    refine ⟨replay.mention entry.event, ?_, ?_⟩
    next => simp only [offer, refused, answerAfter, if_neg expected, counts.delivered]
    next =>
      rw [keep, if_neg expected]
      exact counts.mention entry.event

theorem Replay.mapM_offer {replay : Replay} {kept : List LogEntry} (counts : replay.Counts kept)
    (entries : List LogEntry) :
    ∃ last : Replay, (entries.mapM (offer process)).run replay =
        ((answersAfter process kept entries).map Prod.snd, last) ∧
      last.Counts (entries.foldl keep kept) := by
  induction entries generalizing replay kept with
  | nil => exact ⟨replay, rfl, counts⟩
  | cons entry rest ih =>
    obtain ⟨next, offered, nextCounts⟩ := offer_eq process counts entry
    obtain ⟨last, others, lastCounts⟩ := ih nextCounts
    refine ⟨last, ?_, lastCounts⟩
    rw [run_mapM_cons, StateT.run, offered, others]
    rfl

theorem zip_answersAfter (kept entries : List LogEntry) :
    entries.zip ((answersAfter process kept entries).map Prod.snd) =
      answersAfter process kept entries := by
  induction entries generalizing kept with
  | nil => rfl
  | cons entry rest ih => simp [answersAfter, ih]

theorem map_fst_answersAfter (kept entries : List LogEntry) :
    (answersAfter process kept entries).map Prod.fst = entries := by
  induction entries generalizing kept with
  | nil => rfl
  | cons entry rest ih => simp [answersAfter, ih]

theorem answers_eq (entries : List LogEntry) :
    answers process entries = answersAfter process [] entries := by
  obtain ⟨last, run, -⟩ := Replay.mapM_offer process Replay.counts_start entries
  rw [answers, outcomes, run, zip_answersAfter]

theorem replayAfter_counts (entries : List LogEntry) :
    (replayAfter process entries).Counts (accepted (answers process entries)) := by
  obtain ⟨last, run, counts⟩ := Replay.mapM_offer process Replay.counts_start entries
  rw [replayAfter, run, answers_eq]
  rwa [← append_accepted_answersAfter process, List.nil_append] at counts

theorem LeavesOutRefused.answersAfter_eq {kept entries : List LogEntry}
    {remaining : List (LogEntry × Outcome)}
    (h : LeavesOutRefused remaining (answersAfter process kept entries)) :
    answersAfter process kept (remaining.map Prod.fst) = remaining := by
  induction entries generalizing kept remaining with
  | nil => rw [List.sublist_nil.1 h.sublist]; rfl
  | cons entry rest ih =>
    obtain ⟨sublist, same⟩ := h
    cases sublist with
    | cons _ sublist =>
      have refused := refused_of_leftOut sublist same
      have unexpected : ¬ Expected kept entry.event :=
        fun expected => refused (answerAfter_of_expected process expected).1
      rw [answersAfter, accepted_cons_of_refused _ _ _ refused] at same
      rw [(answerAfter_of_unexpected process unexpected).2] at sublist same
      exact ih ⟨sublist, same⟩
    | cons_cons _ sublist =>
      rw [List.map_cons, answersAfter, ih ⟨sublist, accepted_cons_inj same⟩]

end Answers

/-- What a replay has refused leaves no trace: the events it accepted pass a check alone, it has
counted their deliveries, and without some of the refused events all others are answered as
before. -/
theorem refused_leave_no_trace (process : ProcessId) (entries : List LogEntry) :
    (answers process entries).map Prod.fst = entries ∧
      check process (accepted (answers process entries)) =
        ⟨none, (replayAfter process entries).delivered⟩ ∧
      (replayAfter process entries).delivered =
        (History.deliveries (accepted (answers process entries))).length ∧
      ∀ remaining, LeavesOutRefused remaining (answers process entries) →
        answers process (remaining.map Prod.fst) = remaining := by
  have counts := replayAfter_counts process entries
  have inOrder : InOrder (accepted (answers process entries)) := by
    have kept := append_accepted_answersAfter process [] entries
    rw [List.nil_append] at kept
    rw [answers_eq, kept]
    exact inOrder_foldl_keep inOrder_nil entries
  refine ⟨?_, ?_, counts.delivered, ?_⟩
  next => rw [answers_eq, map_fst_answersAfter]
  next => rw [inOrder.check_eq process, counts.delivered]
  next =>
    intro remaining leavesOut
    rw [answers_eq] at leavesOut ⊢
    exact leavesOut.answersAfter_eq process

def disorderedLog : List LogEntry :=
  [⟨1, .broadcast 1⟩, ⟨2, .deliver ⟨.ofIndex 1, 2⟩⟩, ⟨3, .deliver ⟨.ofIndex 1, 1⟩⟩,
    ⟨4, .broadcast 5⟩, ⟨5, .deliver ⟨.ofIndex 1, 2⟩⟩]

theorem refused_leave_no_trace_disordered :
    LeavesOutRefused ((answers (.ofIndex 0) disorderedLog).eraseIdx 1)
        (answers (.ofIndex 0) disorderedLog) ∧
      answers (.ofIndex 0) (disorderedLog.eraseIdx 1) =
        (answers (.ofIndex 0) disorderedLog).eraseIdx 1 ∧
      (answers (.ofIndex 0) disorderedLog).map (·.2.violation.isNone) =
        [true, false, true, false, true] := by
  have leavesOut : LeavesOutRefused ((answers (.ofIndex 0) disorderedLog).eraseIdx 1)
      (answers (.ofIndex 0) disorderedLog) :=
    ⟨List.eraseIdx_sublist .., by decide +kernel⟩
  have events : ((answers (.ofIndex 0) disorderedLog).eraseIdx 1).map Prod.fst =
      disorderedLog.eraseIdx 1 := by
    decide +kernel
  have others := (refused_leave_no_trace (.ofIndex 0) disorderedLog).2.2.2 _ leavesOut
  rw [events] at others
  exact ⟨leavesOut, others, by decide +kernel⟩

end BroadcastAudit.Fifo
