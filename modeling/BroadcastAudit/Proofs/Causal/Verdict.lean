import BroadcastAudit.Causal.Run
import BroadcastAudit.Proofs.Causal.Past
import BroadcastAudit.Proofs.Text.LastLine
import Mathlib.Data.List.Perm.Basic
import Mathlib.Logic.Relation

set_option autoImplicit false

namespace BroadcastAudit.Causal

open Replays

section Order

variable {config : Dependencies} {traces others : List Trace}

theorem DirectlyPrecedes.mono (sub : traces ⊆ others) {earlier later : Message}
    (h : DirectlyPrecedes config traces earlier later) :
    DirectlyPrecedes config others earlier later := by
  cases h with
  | sameSender sender i j less sent laterSent =>
    exact .sameSender sender i j less (sent.mono sub) (laterSent.mono sub)
  | dependency _ _ other depends sent delivered =>
    obtain ⟨trace, member, rest⟩ := delivered
    exact .dependency _ _ other depends (sent.mono sub) ⟨trace, sub member, rest⟩

theorem Precedes.mono (sub : traces ⊆ others) {earlier later : Message}
    (h : Precedes config traces earlier later) : Precedes config others earlier later :=
  Relation.TransGen.mono (fun _ _ => DirectlyPrecedes.mono sub) _ _ h

theorem PastDelivered.of_perm (perm : traces.Perm others) (past : PastDelivered config traces) :
    PastDelivered config others := by
  intro trace member read line message reads earlier precedes
  exact past trace (perm.mem_iff.2 member) read line message reads earlier
    (precedes.mono perm.symm.subset)

end Order

theorem OneTraceEach.exists_sorted {processCount : Nat} {found : List Trace}
    (oneEach : OneTraceEach processCount found) :
    ∃ traces, traces.map (·.process) = ProcessId.all processCount ∧ found.Perm traces := by
  have sorted := congrFun (congrFun (List.eq_map_comp_perm Trace.process)
    (ProcessId.all processCount)) found
  obtain ⟨traces, inRun, perm⟩ := (iff_of_eq sorted).2 (List.Perm.symm oneEach)
  exact ⟨traces, inRun.symm, perm.symm⟩

namespace Run

theorem ofTraces_correct_iff (config : Dependencies) (traces : List Trace)
    (oneEach : OneTraceEach config.processCount traces) :
    (∃ run, ofTraces config traces = .ok run ∧ run.verdict = .correct) ↔
      (∀ trace ∈ traces, Fifo.InOrder trace.entries) ∧ NoCreation config.processCount traces ∧
        PastDelivered config traces := by
  unfold ofTraces
  by_cases fifo : (Fifo.Report.ofTraces traces).isCorrect = true
  next =>
    have inOrder := (Fifo.Report.isCorrect_ofTraces_iff traces).1 fifo
    simp only [fifo, if_true, bind_eq_ok_iff, check_eq_ok_iff config oneEach inOrder, pure,
      Except.pure, Except.ok.injEq]
    constructor
    next =>
      rintro ⟨_, ⟨_, ⟨noCreation, rfl⟩, rfl⟩, correct⟩
      have run : Faultless config.processCount traces := ⟨oneEach, inOrder, noCreation⟩
      simp only [verdict, fifo, if_true, run.verdict_eq_correct_iff] at correct
      exact ⟨inOrder, noCreation, correct⟩
    next =>
      rintro ⟨-, noCreation, past⟩
      have run : Faultless config.processCount traces := ⟨oneEach, inOrder, noCreation⟩
      refine ⟨_, ⟨_, ⟨noCreation, rfl⟩, rfl⟩, ?_⟩
      simp only [verdict, fifo, if_true, run.verdict_eq_correct_iff]
      exact past
  next =>
    have disorder := mt (Fifo.Report.isCorrect_ofTraces_iff traces).2 fifo
    simp only [fifo, disorder, false_and, iff_false]
    rintro ⟨_, made, correct⟩
    cases made
    cases correct

theorem fault_of_ofTraces {config : Dependencies} {traces : List Trace} {failure : Failure}
    (failed : ofTraces config traces = .error failure) : ∃ fault, failure = .fault fault := by
  simp only [ofTraces, check_eq_settle] at failed
  split at failed
  next =>
    cases fault : checkFault? config traces with
    | none =>
      rw [fault] at failed
      cases failed
    | some cause =>
      rw [fault] at failed
      cases failed
      exact ⟨cause, rfl⟩
  next => cases failed

theorem text_eq (run : Run) :
    ∃ before, Text.EndsLine before ∧ run.text = before ++ toString run.verdict ++ "\n" := by
  -- Whatever comes before the verdict, the last of it is a complete line.
  refine ⟨_, ?_, (String.append_assoc ..).symm⟩
  refine Text.EndsLine.append _ ?_
  cases run.causal with
  | none => exact ⟨_, rfl⟩
  | some causal =>
    obtain ⟨violations, deliveries⟩ := causal
    cases violations with
    | nil =>
      simp only [List.map_nil, List.isEmpty_nil, if_true, String.append_empty, String.join_nil]
      exact Text.EndsLine.append _ ⟨"Checking Lcausal property...", rfl⟩
    | cons violation violations => exact Text.EndsLine.append _ ⟨_, rfl⟩

theorem lastLine?_text (run : Run) :
    Text.lastLine? run.text = some (toString run.verdict) := by
  obtain ⟨before, ends, text⟩ := run.text_eq
  rw [text]
  refine Text.lastLine?_of_endsLine ends _ ?_
  cases run.verdict <;> decide

theorem text_ne_empty (run : Run) : run.text ≠ "" := by
  intro empty
  have last := run.lastLine?_text
  rw [empty] at last
  cases last

end Run

end BroadcastAudit.Causal
