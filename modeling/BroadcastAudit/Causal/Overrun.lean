import BroadcastAudit.Causal.Stamps

set_option autoImplicit false

namespace BroadcastAudit.Causal

structure Overrun where
  file : String
  line : Nat
  seq : Nat
  configured : Nat
deriving DecidableEq

def Overrun.text : String :=
  "Broadcast beyond the configured message count"

def Overrun.ofEntry? (config : Dependencies) (trace : Trace) (entry : LogEntry) :
    Option Overrun :=
  match entry.event with
  | .broadcast seq =>
    if config.messageCount < seq then some ⟨trace.name, entry.line, seq, config.messageCount⟩
    else none
  | .deliver _ => none

def Sending.reached (config : Dependencies) (trace : Trace) (sending : Sending) (before : Nat) :
    List LogEntry → Nat
  | [] => before
  | entry :: rest =>
    match sending.step config trace entry with
    | .ok next => next.reached config trace (before + 1) rest
    | .error _ => before + 1

def overrunsFrom (config : Dependencies) (stamps : Stamps) : List Trace → List Overrun
  | [] => []
  | trace :: rest =>
    if config.processCount < trace.process.val then []
    else
      let start := Sending.start config.processCount stamps
      let replayed := trace.entries.take (start.reached config trace 0 trace.entries)
      let here := replayed.filterMap (Overrun.ofEntry? config trace)
      match replay config stamps trace with
      | .ok next => here ++ overrunsFrom config next rest
      | .error _ => here

def overruns (config : Dependencies) (traces : List Trace) : List Overrun :=
  overrunsFrom config ∅ traces

end BroadcastAudit.Causal
