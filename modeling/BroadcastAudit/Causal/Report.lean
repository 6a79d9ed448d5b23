import BroadcastAudit.Causal.Stamps

set_option autoImplicit false

namespace BroadcastAudit.Causal

/-- The delivery of a message before its past: `required` is the message's stamp and `observed`
what the process had delivered by then. -/
structure Violation where
  process : ProcessId
  line : Nat
  message : Message
  required : VectorClock
  observed : VectorClock
deriving DecidableEq

def Violation.text (violation : Violation) : String :=
  s!"File {violation.process}.output, Line {violation.line}: " ++
    s!"Message {violation.message} delivered before its causal past. " ++
    s!"Vector clock {violation.required} is not covered by {violation.observed}"

inductive Verdict where
  | correct
  | incorrect
deriving DecidableEq

instance : ToString Verdict :=
  ⟨fun
    | .correct => "CORRECT"
    | .incorrect => "INCORRECT"⟩

structure Report where
  violations : List Violation
  deliveries : Nat
deriving DecidableEq

namespace Report

def verdict (report : Report) : Verdict :=
  if report.violations.isEmpty then .correct else .incorrect

def join (reports : List Report) : Report where
  violations := reports.flatMap (·.violations)
  deliveries := (reports.map (·.deliveries)).foldr (· + ·) 0

theorem verdict_eq_correct_iff_nil (report : Report) :
    report.verdict = .correct ↔ report.violations = [] := by
  rw [verdict, ← List.isEmpty_iff]
  split <;> simp_all

theorem verdict_eq_incorrect_iff (report : Report) :
    report.verdict = .incorrect ↔ report.violations ≠ [] := by
  rw [Ne, ← verdict_eq_correct_iff_nil]
  cases report.verdict <;> simp

theorem verdict_eq_incorrect_of_subset {report other : Report}
    (sub : report.violations ⊆ other.violations) (incorrect : report.verdict = .incorrect) :
    other.verdict = .incorrect := by
  rw [verdict_eq_incorrect_iff] at incorrect ⊢
  intro none
  exact incorrect (List.subset_nil.1 (none ▸ sub))

end Report

structure Receiving where
  observed : VectorClock
  violations : Array Violation
  deliveries : Nat

namespace Receiving

def start (processCount : Nat) : Receiving :=
  ⟨.zero processCount, #[], 0⟩

def deliver (config : Dependencies) (stamps : Stamps) (trace : Trace) (receiving : Receiving)
    (entry : LogEntry) (message : Message) : Except Failure Receiving := do
  (trace.checkSender config.processCount entry message.sender).mapError .fault
  match stamps[message]? with
  | none => throw (.fault (.neverBroadcast (trace.place entry) message))
  | some required =>
    -- A message counts as delivered also where it comes before its past.
    let covered ← (receiving.observed.covers required).mapError .misuse
    let observed ← (receiving.observed.increment message.sender).mapError .misuse
    return {
      observed
      violations :=
        if covered then receiving.violations
        else receiving.violations.push
          ⟨trace.process, entry.line, message, required, receiving.observed⟩
      deliveries := receiving.deliveries + 1 }

def step (config : Dependencies) (stamps : Stamps) (trace : Trace) (receiving : Receiving)
    (entry : LogEntry) : Except Failure Receiving :=
  match entry.event with
  | .broadcast _ => .ok receiving
  | .deliver message => receiving.deliver config stamps trace entry message

def report (receiving : Receiving) : Report :=
  ⟨receiving.violations.toList, receiving.deliveries⟩

end Receiving

def judgeTrace (config : Dependencies) (stamps : Stamps) (trace : Trace) :
    Except Failure Report :=
  Receiving.report <$>
    trace.entries.foldlM (Receiving.step config stamps trace) (.start config.processCount)

def judge (config : Dependencies) (stamps : Stamps) (traces : List Trace) :
    Except Failure Report :=
  Report.join <$> traces.mapM (judgeTrace config stamps)

-- All stamps are recovered before any delivery is judged.
def check (config : Dependencies) (traces : List Trace) : Except Failure Report := do
  let stamps ← Stamps.recover config traces
  judge config stamps traces

end BroadcastAudit.Causal
