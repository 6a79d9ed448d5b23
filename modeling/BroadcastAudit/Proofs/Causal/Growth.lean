import BroadcastAudit.Proofs.Causal.Findings
import BroadcastAudit.Proofs.Causal.Gaps

set_option autoImplicit false

namespace BroadcastAudit

-- The path and the name of the longer log may be others; a report has neither.
structure Trace.Extends (longer trace : Trace) : Prop where
  process : longer.process = trace.process
  entries : trace.entries <+: longer.entries

namespace Causal

open Replays

theorem violationsIn_congr (processCount : Nat) (process : ProcessId) {stamps others : Stamps}
    {entries : List LogEntry}
    (same : ∀ message ∈ History.deliveries entries,
      stamps[message]? = others[message]?) :
    violationsIn processCount stamps process entries =
      violationsIn processCount others process entries := by
  refine List.filterMap_congr fun reading member => ?_
  obtain ⟨read, line, seq | message⟩ := reading
  next => rfl
  next =>
    have reads := (mem_withPast ..).1 member
    simp only [violation?, same message (History.mem_deliveries_of_read reads)]

section Longer

variable {config : Dependencies} {longer traces : List Trace}

theorem map_snd_zip_of_extends (extend : List.Forall₂ Trace.Extends longer traces) :
    (longer.zip traces).map Prod.snd = traces :=
  List.map_snd_zip (Nat.le_of_eq extend.length_eq.symm)

theorem exists_longer (extend : List.Forall₂ Trace.Extends longer traces) {trace : Trace}
    (member : trace ∈ traces) : ∃ long ∈ longer, long.Extends trace := by
  rw [← map_snd_zip_of_extends extend, List.mem_map] at member
  obtain ⟨⟨long, _⟩, both, rfl⟩ := member
  exact ⟨long, (List.of_mem_zip both).1, List.forall₂_zip extend both⟩

theorem stampsOf_extends (extend : List.Forall₂ Trace.Extends longer traces)
    (longerRecoverable : Recoverable config.processCount longer)
    (recoverable : Recoverable config.processCount traces) {message : Message}
    {stamp : VectorClock} (found : (stampsOf config traces)[message]? = some stamp) :
    (stampsOf config longer)[message]? = some stamp := by
  rw [recoverable.getElem?_stampsOf] at found
  obtain ⟨trace, member, sender, read, line, reads, rfl⟩ := found
  obtain ⟨long, longMember, grown⟩ := exists_longer extend member
  rw [longerRecoverable.getElem?_stampsOf]
  refine ⟨long, longMember, grown.process.trans sender, read, line, ?_, ?_⟩
  next => exact reads.trans grown.entries
  next => rw [grown.process]

theorem violationsIn_extends (extend : List.Forall₂ Trace.Extends longer traces)
    (longerRecoverable : Recoverable config.processCount longer)
    (recoverable : Recoverable config.processCount traces)
    (noCreation : NoCreation config.processCount traces) {trace : Trace}
    (member : trace ∈ traces) :
    violationsIn config.processCount (stampsOf config traces) trace.process trace.entries =
      violationsIn config.processCount (stampsOf config longer) trace.process trace.entries := by
  refine violationsIn_congr _ _ fun message delivered => ?_
  obtain ⟨stamp, found⟩ := exists_stamp config (noCreation trace member message delivered).2
  rw [found, stampsOf_extends extend longerRecoverable recoverable found]

theorem violations_reportOf_extends (extend : List.Forall₂ Trace.Extends longer traces)
    (longerRecoverable : Recoverable config.processCount longer)
    (recoverable : Recoverable config.processCount traces)
    (noCreation : NoCreation config.processCount traces) :
    (reportOf config traces).violations = (longer.zip traces).flatMap (fun (long, trace) =>
      violationsOf (foundWithin trace.entries.length
        (findingsIn config.processCount (stampsOf config longer) long.process long.entries))) := by
  have paired (block : Trace → List Violation) :
      traces.flatMap block = (longer.zip traces).flatMap fun (_, trace) => block trace := by
    conv_lhs => rw [← map_snd_zip_of_extends extend]
    exact List.flatMap_map ..
  rw [violations_reportOf, paired]
  refine List.flatMap_congr fun (long, trace) both => ?_
  have same := violationsIn_extends extend longerRecoverable recoverable noCreation
    (List.of_mem_zip both).2
  have grown := List.forall₂_zip extend both
  obtain ⟨rest, entries⟩ := grown.entries
  simp only [violationsOf_findingsIn, same]
  simp only [grown.process, ← entries, foundWithin_findingsIn, violationsOf_findingsIn]

theorem violations_subset_of_extends (extend : List.Forall₂ Trace.Extends longer traces)
    (longerRecoverable : Recoverable config.processCount longer)
    (recoverable : Recoverable config.processCount traces)
    (noCreation : NoCreation config.processCount traces) :
    (reportOf config traces).violations ⊆ (reportOf config longer).violations := by
  rw [violations_reportOf_extends extend longerRecoverable recoverable noCreation,
    violations_reportOf]
  intro violation found
  obtain ⟨⟨long, trace⟩, both, within⟩ := List.mem_flatMap.1 found
  exact List.mem_flatMap.2
    ⟨long, (List.of_mem_zip both).1, violationsOf_foundWithin_subset _ _ within⟩

end Longer

/-- The stamps of the shorter logs are kept, and their violations are those of the longer logs that
are found at entries which the shorter logs have. -/
theorem report_extends {config : Dependencies} {longer traces : List Trace}
    {longerReport report : Report} (extend : List.Forall₂ Trace.Extends longer traces)
    (longerChecked : check config longer = .ok longerReport)
    (checked : check config traces = .ok report) :
    ∃ longerStamps stamps, Stamps.recover config longer = .ok longerStamps ∧
      Stamps.recover config traces = .ok stamps ∧
      (∀ (message : Message) (stamp : VectorClock),
        stamps[message]? = some stamp → longerStamps[message]? = some stamp) ∧
      (∀ long ∈ longer, ∀ finding ∈
        findingsIn config.processCount longerStamps long.process long.entries,
          long.entries[finding.entry]? =
            some ⟨finding.violation.line, .deliver finding.violation.message⟩) ∧
      longerReport.violations = longer.flatMap (fun long => violationsOf
        (findingsIn config.processCount longerStamps long.process long.entries)) ∧
      report.violations = (longer.zip traces).flatMap (fun (long, trace) => violationsOf
        (foundWithin trace.entries.length
          (findingsIn config.processCount longerStamps long.process long.entries))) ∧
      (report.verdict = .incorrect → longerReport.verdict = .incorrect) := by
  obtain ⟨longerRecoverable, -, rfl⟩ := (check_eq_ok_iff_recoverable ..).1 longerChecked
  obtain ⟨recoverable, noCreation, rfl⟩ := (check_eq_ok_iff_recoverable ..).1 checked
  refine ⟨stampsOf config longer, stampsOf config traces,
    (recover_eq_ok_iff ..).2 ⟨longerRecoverable, rfl⟩, (recover_eq_ok_iff ..).2 ⟨recoverable, rfl⟩,
    ?_, ?_, violations_reportOf config longer, ?_, ?_⟩
  next => exact fun message stamp => stampsOf_extends extend longerRecoverable recoverable
  next => exact fun long _ finding => getElem?_of_mem_findingsIn _ _ _
  next => exact violations_reportOf_extends extend longerRecoverable recoverable noCreation
  next =>
    have sub := violations_subset_of_extends extend longerRecoverable recoverable noCreation
    exact Report.verdict_eq_incorrect_of_subset sub

def earlyTraces : List Trace :=
  [⟨.ofIndex 0, "1.output", "1.output", [⟨1, .broadcast 1⟩]⟩,
    ⟨.ofIndex 1, "2.output", "2.output", [⟨1, .deliver ⟨.ofIndex 0, 1⟩⟩, ⟨2, .broadcast 1⟩]⟩,
    ⟨.ofIndex 2, "3.output", "3.output",
      [⟨1, .deliver ⟨.ofIndex 0, 1⟩⟩, ⟨2, .deliver ⟨.ofIndex 1, 1⟩⟩, ⟨3, .broadcast 1⟩]⟩,
    ⟨.ofIndex 3, "4.output", "4.output", [⟨1, .deliver ⟨.ofIndex 2, 1⟩⟩]⟩]

def lateCrossedTraces : List Trace :=
  [⟨.ofIndex 0, "1.output", "1.output", [⟨1, .broadcast 1⟩, ⟨2, .deliver ⟨.ofIndex 2, 1⟩⟩]⟩,
    ⟨.ofIndex 1, "2.output", "2.output", [⟨1, .deliver ⟨.ofIndex 0, 1⟩⟩, ⟨2, .broadcast 1⟩]⟩,
    ⟨.ofIndex 2, "3.output", "3.output",
      [⟨1, .deliver ⟨.ofIndex 0, 1⟩⟩, ⟨2, .deliver ⟨.ofIndex 1, 1⟩⟩, ⟨3, .broadcast 1⟩,
        ⟨4, .broadcast 2⟩]⟩,
    ⟨.ofIndex 3, "4.output", "4.output",
      [⟨1, .deliver ⟨.ofIndex 2, 1⟩⟩, ⟨2, .deliver ⟨.ofIndex 0, 1⟩⟩,
        ⟨3, .deliver ⟨.ofIndex 1, 1⟩⟩]⟩]

def earlyReport : Report where
  violations := [⟨.ofIndex 3, 1, ⟨.ofIndex 2, 1⟩, ⟨[0, 1, 0, 0]⟩, ⟨[0, 0, 0, 0]⟩⟩]
  deliveries := 4

def lateCrossedReport : Report where
  violations :=
    ⟨.ofIndex 0, 2, ⟨.ofIndex 2, 1⟩, ⟨[0, 1, 0, 0]⟩, ⟨[0, 0, 0, 0]⟩⟩ :: earlyReport.violations
  deliveries := 7

theorem report_extends_crossed :
    List.Forall₂ Trace.Extends lateCrossedTraces earlyTraces ∧
      check crossedConfig lateCrossedTraces = .ok lateCrossedReport ∧
        check crossedConfig earlyTraces = .ok earlyReport ∧
          ∃ longerStamps, Stamps.recover crossedConfig lateCrossedTraces = .ok longerStamps ∧
            earlyReport.violations =
              (lateCrossedTraces.zip earlyTraces).flatMap (fun (long, trace) => violationsOf
                (foundWithin trace.entries.length
                  (findingsIn 4 longerStamps long.process long.entries))) := by
  have extend : List.Forall₂ Trace.Extends lateCrossedTraces earlyTraces :=
    .cons ⟨rfl, by decide⟩ (.cons ⟨rfl, by decide⟩ (.cons ⟨rfl, by decide⟩
      (.cons ⟨rfl, by decide⟩ .nil)))
  have longerChecked : check crossedConfig lateCrossedTraces = .ok lateCrossedReport := by
    decide +kernel
  have checked : check crossedConfig earlyTraces = .ok earlyReport := by decide +kernel
  obtain ⟨longerStamps, _, recovered, -, -, -, -, kept, -⟩ :=
    report_extends extend longerChecked checked
  exact ⟨extend, longerChecked, checked, longerStamps, recovered, kept⟩

end Causal

end BroadcastAudit
