import BroadcastAudit.Causal.Position
import BroadcastAudit.Proofs.Causal.Counts
import BroadcastAudit.Proofs.Causal.Findings

set_option autoImplicit false

namespace BroadcastAudit.Causal

open Replays

def Uncovered (processCount : Nat) (stamps : Stamps) (traces : List Trace) (position : Position)
    (violation : Violation) : Prop :=
  ∃ trace read, StandsAt traces position trace read
      ⟨violation.line, .deliver violation.message⟩ ∧
    violation.process = trace.process ∧
      stamps[violation.message]? = some violation.required ∧
        violation.observed = ⟨(ProcessId.all processCount).map fun sender =>
          (History.deliveriesFrom sender read).length⟩ ∧
          ∃ sender count, violation.required.get sender = .ok count ∧
            (History.deliveriesFrom sender read).length < count

theorem not_covers_observedAfter_iff {processCount : Nat} {required : VectorClock}
    (sized : required.size = processCount) (read : List LogEntry) :
    ¬ (observedAfter processCount read).Covers required ↔
      ∃ sender count, required.get sender = .ok count ∧
        (History.deliveriesFrom sender read).length < count := by
  simp only [VectorClock.Covers, not_forall, Nat.not_le]
  apply exists_congr
  intro sender
  by_cases inRun : sender.val ≤ required.size
  next =>
    rw [slot_observedAfter _ _ (sized ▸ inRun), VectorClock.get_eq_slot _ _ inRun]
    simp
  next =>
    have empty := VectorClock.slot_eq_zero required sender (Nat.lt_of_not_le inRun)
    rw [empty]
    refine iff_of_false (Nat.not_lt_zero _) ?_
    rintro ⟨count, found, -⟩
    exact inRun (VectorClock.le_size_of_get found)

def findingsAt (processCount : Nat) (stamps : Stamps) (traces : List Trace) :
    List (Position × Violation) :=
  traces.zipIdx.flatMap fun (trace, index) =>
    (findingsIn processCount stamps trace.process trace.entries).map fun finding =>
      (⟨index, finding.entry⟩, finding.violation)

section Found

variable (processCount : Nat) (stamps : Stamps) (traces : List Trace)

theorem map_snd_findingsAt :
    (findingsAt processCount stamps traces).map Prod.snd =
      traces.flatMap fun trace => violationsIn processCount stamps trace.process trace.entries := by
  conv_rhs => rw [← List.zipIdx_map_fst 0 traces]
  simp only [findingsAt, List.map_flatMap, List.map_map, List.flatMap_map,
    ← violationsOf_findingsIn, violationsOf, Function.comp_def]

theorem pairwise_findingsAt :
    ((findingsAt processCount stamps traces).map Prod.fst).Pairwise Position.Before := by
  rw [List.pairwise_map, findingsAt, List.pairwise_flatMap]
  constructor
  next =>
    rintro ⟨trace, index⟩ -
    rw [List.pairwise_map]
    exact (pairwise_findingsIn ..).imp fun before => .inr ⟨rfl, before⟩
  next =>
    have ascending : traces.zipIdx.Pairwise fun listed later => listed.2 < later.2 := by
      rw [← List.pairwise_map, List.zipIdx_map_snd]
      exact List.pairwise_lt_range'
    refine ascending.imp fun before found member later laterMember => .inl ?_
    obtain ⟨_, -, rfl⟩ := List.mem_map.1 member
    obtain ⟨_, -, rfl⟩ := List.mem_map.1 laterMember
    exact before

theorem mem_findingsAt (position : Position) (violation : Violation) :
    (position, violation) ∈ findingsAt processCount stamps traces ↔
      ∃ trace, traces[position.trace]? = some trace ∧
        ⟨position.entry, violation⟩ ∈
          findingsIn processCount stamps trace.process trace.entries := by
  simp only [findingsAt, List.mem_flatMap, List.mem_map, Prod.exists,
    List.mem_zipIdx_iff_getElem?, Prod.mk.injEq]
  constructor
  next =>
    rintro ⟨trace, index, listed, finding, found, rfl, rfl⟩
    exact ⟨trace, listed, found⟩
  next =>
    rintro ⟨trace, listed, found⟩
    exact ⟨trace, position.trace, listed, _, found, rfl, rfl⟩

theorem mem_findingsAt_iff (sized : Sized processCount stamps) (position : Position)
    (violation : Violation) :
    (position, violation) ∈ findingsAt processCount stamps traces ↔
      Uncovered processCount stamps traces position violation := by
  simp only [mem_findingsAt, mem_findingsIn, violation?_eq_some_iff]
  constructor
  next =>
    rintro ⟨trace, listed, read, _, reads, length, process, rfl, found, observed, uncovered⟩
    rw [observed, not_covers_observedAfter_iff (sized _ _ found)] at uncovered
    exact ⟨trace, read, ⟨listed, reads, length⟩, process, found, observed, uncovered⟩
  next =>
    rintro ⟨trace, read, stands, process, found, observed, exceeds⟩
    have uncovered := (not_covers_observedAfter_iff (sized _ _ found) read).2 exceeds
    refine ⟨trace, stands.listed, read, _, stands.reads, stands.length, process, rfl, found,
      observed, ?_⟩
    rwa [observed]

end Found

/-- All deliveries are judged, each by those before it in its log, whether these were flagged or
not: the violations are the uncovered deliveries in the order of their positions. -/
theorem judge_reports_uncovered {config : Dependencies} {stamps : Stamps} {traces : List Trace}
    {report : Report} (sized : Sized config.processCount stamps)
    (judged : judge config stamps traces = .ok report) :
    (∃ found : List (Position × Violation), found.map Prod.snd = report.violations ∧
        (found.map Prod.fst).Pairwise Position.Before ∧
          ∀ position violation, (position, violation) ∈ found ↔
            Uncovered config.processCount stamps traces position violation) ∧
      report.deliveries =
        (traces.flatMap fun trace => History.deliveries trace.entries).length := by
  rw [judge_eq_settle config stamps sized, settle_eq_ok_iff] at judged
  obtain ⟨-, rfl⟩ := judged
  refine ⟨⟨findingsAt config.processCount stamps traces, ?_, pairwise_findingsAt .., ?_⟩, ?_⟩
  next =>
    rw [map_snd_findingsAt, Report.join, List.flatMap_map]
    rfl
  next => exact mem_findingsAt_iff config.processCount stamps traces sized
  next =>
    rw [List.length_flatMap, Report.join, List.map_map]
    rfl

def stampedTraces : List Trace :=
  [⟨.ofIndex 0, "1.output", "1.output", [⟨1, .deliver ⟨.ofIndex 1, 9⟩⟩, ⟨2, .broadcast 5⟩]⟩,
    ⟨.ofIndex 1, "2.output", "2.output",
      [⟨1, .deliver ⟨.ofIndex 0, 5⟩⟩, ⟨2, .deliver ⟨.ofIndex 0, 5⟩⟩, ⟨3, .broadcast 9⟩]⟩]

def stampedConfig : Dependencies :=
  .ofNumbers 1 [[2], [1]]

def replayedTraces : List Trace :=
  [⟨.ofIndex 6, "7.output", "7.output",
    [⟨1, .deliver ⟨.ofIndex 0, 5⟩⟩, ⟨2, .deliver ⟨.ofIndex 1, 9⟩⟩, ⟨3, .deliver ⟨.ofIndex 0, 5⟩⟩,
      ⟨4, .deliver ⟨.ofIndex 1, 9⟩⟩]⟩]

def replayedReport : Report where
  violations := [⟨.ofIndex 6, 1, ⟨.ofIndex 0, 5⟩, ⟨[0, 1]⟩, ⟨[0, 0]⟩⟩,
    ⟨.ofIndex 6, 2, ⟨.ofIndex 1, 9⟩, ⟨[2, 0]⟩, ⟨[1, 0]⟩⟩]
  deliveries := 4

theorem judge_reports_uncovered_replayed :
    ∃ stamps, Sized stampedConfig.processCount stamps ∧
      judge stampedConfig stamps replayedTraces = .ok replayedReport ∧
        ∃ found : List (Position × Violation), found.map Prod.snd = replayedReport.violations ∧
          (found.map Prod.fst).Pairwise Position.Before ∧
            ∀ position violation, (position, violation) ∈ found ↔
              Uncovered stampedConfig.processCount stamps replayedTraces position violation := by
  have sized := sized_stampsOf stampedConfig stampedTraces
  have judged : judge stampedConfig (stampsOf stampedConfig stampedTraces) replayedTraces =
      .ok replayedReport := by
    decide +kernel
  exact ⟨_, sized, judged, (judge_reports_uncovered sized judged).1⟩

end BroadcastAudit.Causal
