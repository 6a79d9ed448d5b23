import BroadcastAudit.Causal.Report
import BroadcastAudit.Causal.Overrun
import BroadcastAudit.Fifo.Report

set_option autoImplicit false

namespace BroadcastAudit.Causal

structure Run where
  fifo : Fifo.Report
  causal : Option Report
  overruns : List Overrun
deriving DecidableEq

namespace Run

def verdict (run : Run) : Verdict :=
  match run.causal with
  | some causal => if run.fifo.isCorrect then causal.verdict else .incorrect
  | none => .incorrect

def text (run : Run) : String :=
  run.fifo.filesText ++
    (match run.causal with
    | none => s!"Number of failures detected for FIFO property: {run.fifo.failures}\n"
    | some causal =>
      "All output files respect the FIFO Property\n" ++ run.fifo.deliveredText ++
        "Checking Lcausal property...\n" ++
        String.join (causal.violations.map fun violation => violation.text ++ "\n") ++
        if causal.violations.isEmpty then ""
        else s!"Number of causal violations: {causal.violations.length}\n") ++
    s!"{run.verdict}\n"

def ofTraces (config : Dependencies) (traces : List Trace) : Except Failure Run := do
  let fifo := Fifo.Report.ofTraces traces
  if fifo.isCorrect then
    let causal ← check config traces
    return ⟨fifo, some causal, Causal.overruns config traces⟩
  else return ⟨fifo, none, []⟩

end Run

end BroadcastAudit.Causal
