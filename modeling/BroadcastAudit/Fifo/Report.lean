import BroadcastAudit.Fifo.Replay
import BroadcastAudit.Trace

set_option autoImplicit false

namespace BroadcastAudit.Fifo

structure FileResult where
  process : ProcessId
  path : String
  violation : Option Violation
deriving DecidableEq

namespace FileResult

def ofTrace (trace : Trace) : FileResult :=
  ⟨trace.process, trace.path, (check trace.process trace.entries).violation⟩

def isCorrect (result : FileResult) : Bool :=
  result.violation.isNone

def text (result : FileResult) : String :=
  s!"Checking {result.path}\n" ++
    match result.violation with
    | none => "Validation OK"
    | some violation => s!"{violation.text}\nValidation failed!"

end FileResult

structure Report where
  files : List FileResult
  delivered : Nat
deriving DecidableEq

namespace Report

def ofTraces (traces : List Trace) : Report where
  files := traces.map .ofTrace
  delivered :=
    (traces.map fun trace => (check trace.process trace.entries).delivered).foldr (· + ·) 0

def failures (report : Report) : Nat :=
  report.files.countP (!·.isCorrect)

def isCorrect (report : Report) : Bool :=
  report.failures == 0

def violations (report : Report) : List Violation :=
  report.files.filterMap (·.violation)

def filesText (report : Report) : String :=
  String.join (report.files.map fun file => file.text ++ "\n")

def deliveredText (report : Report) : String :=
  s!"Number of delivered messages in total: {report.delivered}\n"

def text (report : Report) : String :=
  report.filesText ++
    if report.isCorrect then "All output files are correct\n" ++ report.deliveredText
    else s!"Number of failures detected: {report.failures}\n"

theorem isCorrect_iff (report : Report) :
    report.isCorrect = true ↔ ∀ file ∈ report.files, file.violation = none := by
  simp [isCorrect, failures, FileResult.isCorrect]

end Report

end BroadcastAudit.Fifo
