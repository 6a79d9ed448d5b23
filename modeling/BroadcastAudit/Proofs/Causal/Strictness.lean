import BroadcastAudit.Proofs.Causal.Findings
import BroadcastAudit.Proofs.Causal.Gaps
import BroadcastAudit.Proofs.Causal.Outcome

set_option autoImplicit false

namespace BroadcastAudit

structure Dependencies.Includes (more fewer : Dependencies) : Prop where
  processCount : more.processCount = fewer.processCount
  depends : ∀ process sender, fewer.Depends process sender → more.Depends process sender

namespace Causal

section Includes

variable {more fewer : Dependencies} {traces : List Trace}

theorem pastSlots_le (includes : more.Includes fewer) (process : ProcessId) (read : List LogEntry)
    (sender : ProcessId) :
    pastSlots fewer process read sender ≤ pastSlots more process read sender := by
  unfold pastSlots
  by_cases depends : fewer.Depends process sender
  next => simp [depends, includes.depends process sender depends]
  next => simp [depends]

theorem stampAfter_covers (includes : more.Includes fewer) (process : ProcessId)
    (read : List LogEntry) :
    (stampAfter more process read).Covers (stampAfter fewer process read) := by
  intro other
  have slots := pastSlots_le includes process read other
  simp only [stampAfter, VectorClock.slot_ofSlots, includes.processCount, Function.update_apply]
  split_ifs
  next => exact Nat.le_refl _
  next => exact slots
  next => exact Nat.le_refl _

theorem exists_stamp_covers (includes : more.Includes fewer)
    (recoverable : Recoverable fewer.processCount traces) {message : Message} {stamp : VectorClock}
    (found : (stampsOf fewer traces)[message]? = some stamp) :
    ∃ wider, (stampsOf more traces)[message]? = some wider ∧ wider.Covers stamp := by
  have moreRecoverable : Recoverable more.processCount traces := includes.processCount ▸ recoverable
  obtain ⟨trace, member, sender, read, line, reads, rfl⟩ :=
    (recoverable.getElem?_stampsOf ..).1 found
  refine ⟨stampAfter more trace.process read, ?_, stampAfter_covers includes trace.process read⟩
  exact (moreRecoverable.getElem?_stampsOf ..).2 ⟨trace, member, sender, read, line, reads, rfl⟩

theorem exists_finding (includes : more.Includes fewer)
    (recoverable : Recoverable fewer.processCount traces) {process : ProcessId}
    {entries : List LogEntry} {finding : Finding}
    (found : finding ∈ findingsIn fewer.processCount (stampsOf fewer traces) process entries) :
    ∃ required, required.Covers finding.violation.required ∧
      ⟨finding.entry, { finding.violation with required }⟩ ∈
        findingsIn more.processCount (stampsOf more traces) process entries := by
  obtain ⟨read, entry, reads, length, violates⟩ := (mem_findingsIn ..).1 found
  obtain ⟨owner, delivery, stamped, observed, uncovered⟩ := (violation?_eq_some_iff ..).1 violates
  obtain ⟨required, wider, covers⟩ := exists_stamp_covers includes recoverable stamped
  refine ⟨required, covers, (mem_findingsIn ..).2 ⟨read, entry, reads, length, ?_⟩⟩
  rw [violation?_eq_some_iff, includes.processCount]
  exact ⟨owner, delivery, wider, observed, fun covered => uncovered (covered.trans covers)⟩

theorem check_error_iff_of_includes (includes : more.Includes fewer) (traces : List Trace)
    (failure : Failure) :
    check more traces = .error failure ↔ check fewer traces = .error failure := by
  rw [check_eq_error_iff, check_eq_error_iff, includes.processCount]

theorem deliveries_reportOf (config : Dependencies) (traces : List Trace) :
    (reportOf config traces).deliveries =
      (traces.map fun trace => (History.deliveries trace.entries).length).foldr (· + ·) 0 := by
  simp only [reportOf, Report.join, List.map_map]
  rfl

end Includes

/-- A check that fails under one configuration fails alike under the other. With more dependencies
every delivery that was flagged stays flagged, with the same deliveries observed before it and a
required stamp that covers the one before. -/
theorem more_dependencies_flag_more {more fewer : Dependencies} (includes : more.Includes fewer)
    (traces : List Trace) :
    (∀ failure, check more traces = .error failure ↔ check fewer traces = .error failure) ∧
      ∀ moreReport report, check more traces = .ok moreReport → check fewer traces = .ok report →
        moreReport.deliveries = report.deliveries ∧
          ∃ moreStamps stamps, Stamps.recover more traces = .ok moreStamps ∧
            Stamps.recover fewer traces = .ok stamps ∧
            moreReport.violations = traces.flatMap (fun trace => violationsOf
              (findingsIn more.processCount moreStamps trace.process trace.entries)) ∧
            report.violations = traces.flatMap (fun trace => violationsOf
              (findingsIn fewer.processCount stamps trace.process trace.entries)) ∧
            ∀ trace ∈ traces, ∀ finding ∈
              findingsIn fewer.processCount stamps trace.process trace.entries,
                trace.entries[finding.entry]? =
                  some ⟨finding.violation.line, .deliver finding.violation.message⟩ ∧
                ∃ required, required.Covers finding.violation.required ∧
                  ⟨finding.entry, { finding.violation with required }⟩ ∈
                    findingsIn more.processCount moreStamps trace.process trace.entries := by
  refine ⟨check_error_iff_of_includes includes traces, ?_⟩
  intro moreReport report moreChecked checked
  obtain ⟨moreRecoverable, -, rfl⟩ := (check_eq_ok_iff_recoverable ..).1 moreChecked
  obtain ⟨recoverable, -, rfl⟩ := (check_eq_ok_iff_recoverable ..).1 checked
  refine ⟨?_, stampsOf more traces, stampsOf fewer traces,
    (recover_eq_ok_iff ..).2 ⟨moreRecoverable, rfl⟩, (recover_eq_ok_iff ..).2 ⟨recoverable, rfl⟩,
    violations_reportOf more traces, violations_reportOf fewer traces, ?_⟩
  next => rw [deliveries_reportOf, deliveries_reportOf]
  next =>
    intro trace _ finding found
    exact ⟨getElem?_of_mem_findingsIn _ _ _ found, exists_finding includes recoverable found⟩

def strictConfig : Dependencies :=
  .ofNumbers 1 [[], [1], [1, 2], []]

def strictReport : Report where
  violations := [⟨.ofIndex 3, 1, ⟨.ofIndex 2, 1⟩, ⟨[1, 1, 0, 0]⟩, ⟨[0, 0, 0, 0]⟩⟩]
  deliveries := 6

theorem more_dependencies_flag_more_crossed :
    strictConfig.Includes crossedConfig ∧
      check strictConfig crossedTraces = .ok strictReport ∧
        check crossedConfig crossedTraces = .ok crossedReport ∧
          strictReport.deliveries = crossedReport.deliveries ∧
            ∃ stamps, Stamps.recover strictConfig crossedTraces = .ok stamps ∧
              strictReport.violations = crossedTraces.flatMap (fun trace => violationsOf
                (findingsIn 4 stamps trace.process trace.entries)) := by
  have includes : strictConfig.Includes crossedConfig :=
    ⟨rfl, (crossedConfig.forall_depends_iff _).2 (by decide)⟩
  have strict : check strictConfig crossedTraces = .ok strictReport := by decide +kernel
  have checked : check crossedConfig crossedTraces = .ok crossedReport := by decide +kernel
  obtain ⟨deliveries, stamps, -, recovered, -, violations, -⟩ :=
    (more_dependencies_flag_more includes crossedTraces).2 _ _ strict checked
  exact ⟨includes, strict, checked, deliveries, stamps, recovered, violations⟩

end Causal

end BroadcastAudit
