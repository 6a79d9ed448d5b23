import BroadcastAudit.Proofs.Causal.Faultless
import Mathlib.Data.List.Perm.Basic

set_option autoImplicit false

namespace BroadcastAudit.Causal

namespace Report

theorem deliveries_join_of_perm {reports others : List Report} (perm : reports.Perm others) :
    (join reports).deliveries = (join others).deliveries :=
  (perm.map _).foldr_eq 0

theorem violations_join_perm {reports others : List Report} (perm : reports.Perm others) :
    (join reports).violations.Perm (join others).violations :=
  perm.flatMap_right _

theorem verdict_eq_of_perm {report other : Report}
    (perm : report.violations.Perm other.violations) : report.verdict = other.verdict := by
  rw [verdict, verdict, perm.isEmpty_eq]

end Report

section Reordered

variable {config : Dependencies} {traces others : List Trace}

theorem scan_perm (perm : traces.Perm others) : (scan traces).Perm (scan others) :=
  perm.flatMap_right _

theorem Recoverable.of_perm {processCount : Nat} (perm : traces.Perm others)
    (recoverable : Recoverable processCount traces) : Recoverable processCount others where
  inRun trace member := recoverable.inRun trace (perm.mem_iff.2 member)
  sendersInRun trace member := recoverable.sendersInRun trace (perm.mem_iff.2 member)
  sentOnce := ((scan_perm perm).filterMap _).nodup_iff.1 recoverable.sentOnce

theorem Recoverable.stampsOf_eq_of_perm (perm : traces.Perm others)
    (recoverable : Recoverable config.processCount traces) :
    stampsOf config traces = stampsOf config others := by
  apply Std.ExtTreeMap.ext_getElem?
  intro message
  apply Option.ext
  intro stamp
  rw [recoverable.getElem?_stampsOf, (recoverable.of_perm perm).getElem?_stampsOf]
  simp only [perm.mem_iff]

theorem recover_eq_ok_of_perm (perm : traces.Perm others) {stamps : Stamps}
    (recovered : Stamps.recover config traces = .ok stamps) :
    Stamps.recover config others = .ok stamps := by
  obtain ⟨recoverable, rfl⟩ := (recover_eq_ok_iff ..).1 recovered
  exact (recover_eq_ok_iff ..).2
    ⟨recoverable.of_perm perm, (recoverable.stampsOf_eq_of_perm perm).symm⟩

theorem exists_report_of_perm (perm : traces.Perm others)
    (checked : ∃ report, check config traces = .ok report) :
    ∃ report, check config others = .ok report := by
  obtain ⟨report, checked⟩ := checked
  obtain ⟨recoverable, noCreation, -⟩ := (check_eq_ok_iff_recoverable ..).1 checked
  exact ⟨reportOf config others, (check_eq_ok_iff_recoverable ..).2
    ⟨recoverable.of_perm perm, noCreation.of_perm perm, rfl⟩⟩

end Reordered

/-- The stamps, the verdict and the number of deliveries do not depend on the order of the traces,
and the violations of each trace stay together. -/
theorem check_perm {config : Dependencies} {traces others : List Trace}
    (perm : traces.Perm others) :
    (∀ stamps, Stamps.recover config traces = .ok stamps ↔
        Stamps.recover config others = .ok stamps) ∧
      ((∃ report, check config traces = .ok report) ↔
        ∃ report, check config others = .ok report) ∧
      ∀ report otherReport, check config traces = .ok report →
        check config others = .ok otherReport →
          report.deliveries = otherReport.deliveries ∧ report.verdict = otherReport.verdict ∧
            ∃ stamps, Stamps.recover config traces = .ok stamps ∧
              ∃ block : Trace → Report,
                (∀ trace ∈ traces, judgeTrace config stamps trace = .ok (block trace)) ∧
                  report.violations = traces.flatMap (fun trace => (block trace).violations) ∧
                  otherReport.violations =
                    others.flatMap (fun trace => (block trace).violations) := by
  refine ⟨fun stamps => ⟨recover_eq_ok_of_perm perm, recover_eq_ok_of_perm perm.symm⟩,
    ⟨exists_report_of_perm perm, exists_report_of_perm perm.symm⟩, ?_⟩
  intro report otherReport checked otherChecked
  obtain ⟨recoverable, noCreation, rfl⟩ := (check_eq_ok_iff_recoverable ..).1 checked
  obtain ⟨-, -, rfl⟩ := (check_eq_ok_iff_recoverable ..).1 otherChecked
  have reordered : reportOf config others =
      .join (others.map (traceReport config.processCount (stampsOf config traces))) := by
    rw [reportOf, ← recoverable.stampsOf_eq_of_perm perm]
  have blocks : (traces.map (traceReport config.processCount (stampsOf config traces))).Perm
      (others.map (traceReport config.processCount (stampsOf config traces))) := perm.map _
  rw [reordered]
  refine ⟨Report.deliveries_join_of_perm blocks,
    Report.verdict_eq_of_perm (Report.violations_join_perm blocks), stampsOf config traces,
    (recover_eq_ok_iff ..).2 ⟨recoverable, rfl⟩, _,
    fun trace member => noCreation.judgeTrace_eq_ok member, ?_, ?_⟩
  next => exact List.flatMap_map ..
  next => exact List.flatMap_map ..

def splitTraces : List Trace :=
  [⟨.ofIndex 1, "2.output", "2.output", [⟨1, .deliver ⟨.ofIndex 0, 2⟩⟩, ⟨2, .broadcast 1⟩]⟩,
    ⟨.ofIndex 0, "1.output", "1.output", [⟨1, .broadcast 1⟩]⟩,
    ⟨.ofIndex 0, "01.output", "01.output",
      [⟨1, .deliver ⟨.ofIndex 1, 1⟩⟩, ⟨2, .broadcast 2⟩]⟩]

def splitReport : Report where
  violations :=
    [⟨.ofIndex 1, 1, ⟨.ofIndex 0, 2⟩, ⟨[0, 1]⟩, ⟨[0, 0]⟩⟩,
      ⟨.ofIndex 0, 1, ⟨.ofIndex 1, 1⟩, ⟨[1, 0]⟩, ⟨[0, 0]⟩⟩]
  deliveries := 2

theorem check_perm_split :
    splitTraces.Perm splitTraces.reverse ∧
      check (.ofNumbers 2 [[2], [1]]) splitTraces = .ok splitReport ∧
        check (.ofNumbers 2 [[2], [1]]) splitTraces.reverse =
            .ok ⟨splitReport.violations.reverse, 2⟩ ∧
          ∃ stamps, Stamps.recover (.ofNumbers 2 [[2], [1]]) splitTraces.reverse = .ok stamps ∧
            ∃ block : Trace → Report, splitReport.violations.reverse =
              splitTraces.reverse.flatMap (fun trace => (block trace).violations) := by
  have perm : splitTraces.Perm splitTraces.reverse := splitTraces.reverse_perm.symm
  have checked : check (.ofNumbers 2 [[2], [1]]) splitTraces = .ok splitReport := by
    decide +kernel
  have reversed : check (.ofNumbers 2 [[2], [1]]) splitTraces.reverse =
      .ok ⟨splitReport.violations.reverse, 2⟩ := by decide +kernel
  obtain ⟨recovers, -, same⟩ := check_perm perm
  obtain ⟨-, -, stamps, recovered, block, -, -, blocks⟩ := same _ _ checked reversed
  exact ⟨perm, checked, reversed, stamps, (recovers stamps).1 recovered, block, blocks⟩

end BroadcastAudit.Causal
