import BroadcastAudit.Proofs.Causal.Past
import Mathlib.Logic.Relation
import Mathlib.Order.Defs.Unbundled

set_option autoImplicit false

namespace BroadcastAudit.Causal

-- A chain stays with one sender, whose numbers go up, or goes through a delivered message.
theorem Precedes.stays_or_delivered {config : Dependencies} {traces : List Trace}
    {earlier later : Message} (h : Precedes config traces earlier later) :
    earlier.sender = later.sender ∧ earlier.seq < later.seq ∨
      ∃ middle next, DeliversBeforeBroadcast traces middle next ∧
        Relation.ReflTransGen (DirectlyPrecedes config traces) earlier middle ∧
          Precedes config traces middle later := by
  induction h with
  | single step =>
    cases step with
    | sameSender _ _ _ less _ _ => exact .inl ⟨rfl, less⟩
    | dependency _ _ other depends sent delivered =>
      exact .inr ⟨_, _, delivered, .refl, .single (.dependency _ _ other depends sent delivered)⟩
  | tail chain step ih =>
    rcases ih with ⟨sender, less⟩ | ⟨middle, next, delivered, before, after⟩
    next =>
      cases step with
      | sameSender _ _ _ nextLess _ _ => exact .inl ⟨sender, Nat.lt_trans less nextLess⟩
      | dependency _ _ other depends sent delivered =>
        exact .inr ⟨_, _, delivered, chain.to_reflTransGen,
          .single (.dependency _ _ other depends sent delivered)⟩
    next => exact .inr ⟨middle, next, delivered, before, after.tail step⟩

theorem Precedes.exists_delivered {config : Dependencies} {traces : List Trace} {message : Message}
    (cycle : Precedes config traces message message) :
    ∃ trace ∈ traces, ∃ looped ∈ History.deliveries trace.entries,
      Precedes config traces message looped ∧ Precedes config traces looped message := by
  rcases cycle.stays_or_delivered with ⟨-, less⟩ | ⟨middle, next, delivered, before, after⟩
  next => exact absurd less (Nat.lt_irrefl _)
  next =>
    obtain ⟨trace, member, -, read, line, broadcast, known⟩ :=
      (deliversBeforeBroadcast_iff ..).1 delivered
    have inTrace := History.mem_deliveries_of_isPrefix (History.isPrefix_of_read broadcast) known
    exact ⟨trace, member, middle, inTrace, cycle.trans_left before, after⟩

section Faultless

variable {config : Dependencies} {traces : List Trace}

theorem Faultless.not_knowsPast_of_cycle (run : Faultless config.processCount traces)
    {trace : Trace} (member : trace ∈ traces) {read : List LogEntry} {line : Nat} {looped : Message}
    (reads : read ++ [⟨line, .deliver looped⟩] <+: trace.entries)
    (cycle : Precedes config traces looped looped) : ¬ KnowsPast config traces read looped := by
  intro past
  -- The message is in its own past, so it would have to be delivered before it is delivered.
  have already := past looped cycle
  have inOrder := (run.inOrder trace member).of_read reads
  have expected : looped.seq = _ := (run.inOrder trace member).expected reads
  rw [inOrder.mem_deliveries_iff] at already
  omega

theorem Faultless.not_precedes_self (run : Faultless config.processCount traces)
    (past : PastDelivered config traces) (message : Message) :
    ¬ Precedes config traces message message := by
  intro cycle
  obtain ⟨trace, member, looped, delivered, there, back⟩ := cycle.exists_delivered
  obtain ⟨read, line, reads⟩ := History.exists_read_delivery delivered
  exact run.not_knowsPast_of_cycle member reads (back.trans there)
    (past trace member read line looped reads)

theorem Faultless.flags_of_delivers_cycle (run : Faultless config.processCount traces)
    {trace : Trace} (member : trace ∈ traces) {looped : Message}
    (delivered : looped ∈ History.deliveries trace.entries)
    (cycle : Precedes config traces looped looped) :
    ∃ line message, (reportOf config traces).Flags trace.process line message := by
  by_contra unflagged
  obtain ⟨read, line, reads⟩ := History.exists_read_delivery delivered
  apply run.not_knowsPast_of_cycle member reads cycle
  refine run.knowsPast_of_complete member (List.prefix_refl _) ?_ read line looped reads
  intro before place message inside misses
  rw [← run.flags_iff_misses member inside] at misses
  exact unflagged ⟨place, message, misses⟩

theorem Faultless.isStrictOrder_precedes (run : Faultless config.processCount traces)
    (past : PastDelivered config traces) : IsStrictOrder Message (Precedes config traces) where
  irrefl := run.not_precedes_self past
  trans _ _ _ first second := first.trans second

end Faultless

/-- Without a violation precedence is a strict order; where a message precedes itself, a process
that delivers a message of the cycle has a violation. -/
theorem cycles_are_flagged {config : Dependencies} {traces : List Trace} {report : Report}
    (oneEach : OneTraceEach config.processCount traces)
    (fifo : ∀ trace ∈ traces, (Fifo.check trace.process trace.entries).violation = none)
    (checked : check config traces = .ok report) :
    (report.verdict = .correct → IsStrictOrder Message (Precedes config traces)) ∧
      ∀ message, Precedes config traces message message →
        ∃ violation ∈ report.violations, ∃ trace ∈ traces, trace.process = violation.process ∧
          ∃ looped ∈ History.deliveries trace.entries,
            Precedes config traces message looped ∧ Precedes config traces looped message := by
  obtain ⟨run, rfl⟩ := faultless_of_check oneEach fifo checked
  constructor
  next => exact fun correct => run.isStrictOrder_precedes (run.verdict_eq_correct_iff.1 correct)
  next =>
    intro message cycle
    obtain ⟨trace, member, looped, delivered, there, back⟩ := cycle.exists_delivered
    obtain ⟨line, flagged, violation, found, process, -, -⟩ :=
      run.flags_of_delivers_cycle member delivered (back.trans there)
    exact ⟨violation, found, trace, member, process.symm, looped, delivered, there, back⟩

def mutualTraces : List Trace :=
  [⟨.ofIndex 0, "1.output", "1.output", [⟨1, .deliver ⟨.ofIndex 1, 1⟩⟩, ⟨2, .broadcast 1⟩]⟩,
    ⟨.ofIndex 1, "2.output", "2.output", [⟨1, .deliver ⟨.ofIndex 0, 1⟩⟩, ⟨2, .broadcast 1⟩]⟩]

def mutualConfig : Dependencies :=
  .ofNumbers 1 [[2], [1]]

def mutualReport : Report where
  violations :=
    [⟨.ofIndex 0, 1, ⟨.ofIndex 1, 1⟩, ⟨[1, 0]⟩, ⟨[0, 0]⟩⟩,
      ⟨.ofIndex 1, 1, ⟨.ofIndex 0, 1⟩, ⟨[0, 1]⟩, ⟨[0, 0]⟩⟩]
  deliveries := 2

def heardTraces : List Trace :=
  [⟨.ofIndex 0, "1.output", "1.output", [⟨1, .broadcast 1⟩]⟩,
    ⟨.ofIndex 1, "2.output", "2.output", [⟨1, .deliver ⟨.ofIndex 0, 1⟩⟩, ⟨2, .broadcast 1⟩]⟩]

theorem cycles_are_flagged_mutual :
    OneTraceEach mutualConfig.processCount mutualTraces ∧
      (∀ trace ∈ mutualTraces, (Fifo.check trace.process trace.entries).violation = none) ∧
        check mutualConfig mutualTraces = .ok mutualReport ∧
          Precedes mutualConfig mutualTraces ⟨.ofIndex 0, 1⟩ ⟨.ofIndex 0, 1⟩ ∧
            mutualReport.violations ≠ [] ∧ check mutualConfig heardTraces = .ok ⟨[], 1⟩ ∧
              IsStrictOrder Message (Precedes mutualConfig heardTraces) := by
  have oneEach : OneTraceEach mutualConfig.processCount mutualTraces := by decide
  have fifo : ∀ trace ∈ mutualTraces,
      (Fifo.check trace.process trace.entries).violation = none := by decide
  have checked : check mutualConfig mutualTraces = .ok mutualReport := by decide +kernel
  have heardEach : OneTraceEach mutualConfig.processCount heardTraces := by decide
  have heardFifo : ∀ trace ∈ heardTraces,
      (Fifo.check trace.process trace.entries).violation = none := by decide
  have heard : check mutualConfig heardTraces = .ok ⟨[], 1⟩ := by decide +kernel
  have cycle : Precedes mutualConfig mutualTraces ⟨.ofIndex 0, 1⟩ ⟨.ofIndex 0, 1⟩ := by
    refine .tail (b := ⟨.ofIndex 1, 1⟩) (.single ?_) ?_
    next =>
      exact .dependency _ _ (by decide) (by decide)
        ⟨mutualTraces[0], List.getElem_mem _, rfl, by decide⟩
        ⟨mutualTraces[1], List.getElem_mem _, rfl, [⟨1, .deliver ⟨.ofIndex 0, 1⟩⟩], 2, [], rfl,
          by decide⟩
    next =>
      exact .dependency _ _ (by decide) (by decide)
        ⟨mutualTraces[1], List.getElem_mem _, rfl, by decide⟩
        ⟨mutualTraces[0], List.getElem_mem _, rfl, [⟨1, .deliver ⟨.ofIndex 1, 1⟩⟩], 2, [], rfl,
          by decide⟩
  obtain ⟨violation, found, -⟩ := (cycles_are_flagged oneEach fifo checked).2 _ cycle
  exact ⟨oneEach, fifo, checked, cycle, List.ne_nil_of_mem found, heard,
    (cycles_are_flagged heardEach heardFifo heard).1 rfl⟩

end BroadcastAudit.Causal
