import BroadcastAudit.Causal.Precedence

set_option autoImplicit false

namespace BroadcastAudit.Causal

inductive ScanPoint where
  | whole (trace : Trace)
  | entry (trace : Trace) (entry : LogEntry)

namespace ScanPoint

def ofTrace (trace : Trace) : List ScanPoint :=
  whole trace :: trace.entries.map (ScanPoint.entry trace)

def sent? : ScanPoint → Option Message
  | whole _ => none
  | entry _ ⟨_, .deliver _⟩ => none
  | entry trace ⟨_, .broadcast seq⟩ => some ⟨trace.process, seq⟩

end ScanPoint

def scan (traces : List Trace) : List ScanPoint :=
  traces.flatMap ScanPoint.ofTrace

def sent (points : List ScanPoint) : List Message :=
  points.filterMap ScanPoint.sent?

def FaultFree (wrong : List ScanPoint → ScanPoint → Fault → Prop) (points : List ScanPoint) :
    Prop :=
  ∀ before point fault, before ++ [point] <+: points → ¬ wrong before point fault

def FirstFault (wrong : List ScanPoint → ScanPoint → Fault → Prop) (points : List ScanPoint)
    (fault : Fault) : Prop :=
  ∃ before point, before ++ [point] <+: points ∧ FaultFree wrong before ∧ wrong before point fault

inductive Inadmissible (processCount : Nat) (before : List ScanPoint) :
    ScanPoint → Fault → Prop where
  | unknownLog (trace : Trace) (outside : processCount < trace.process.val) :
      Inadmissible processCount before (.whole trace)
        (.unknownLog trace.name trace.process processCount)
  | unknownSender (trace : Trace) (line : Nat) (message : Message)
      (outside : processCount < message.sender.val) :
      Inadmissible processCount before (.entry trace ⟨line, .deliver message⟩)
        (.unknownSender ⟨trace.name, line⟩ message.sender processCount)
  | repeatedBroadcast (trace : Trace) (line seq : Nat)
      (repeated : ⟨trace.process, seq⟩ ∈ sent before) :
      Inadmissible processCount before (.entry trace ⟨line, .broadcast seq⟩)
        (.repeatedBroadcast ⟨trace.name, line⟩ ⟨trace.process, seq⟩)

inductive Unsent (traces : List Trace) : ScanPoint → Fault → Prop where
  | neverBroadcast (trace : Trace) (line : Nat) (message : Message)
      (unsent : ¬ IsBroadcast traces message) :
      Unsent traces (.entry trace ⟨line, .deliver message⟩)
        (.neverBroadcast ⟨trace.name, line⟩ message)

theorem scan_append_singleton (traces : List Trace) (trace : Trace) :
    scan (traces ++ [trace]) = scan traces ++ ScanPoint.ofTrace trace := by
  simp [scan]

theorem mem_scan_whole (traces : List Trace) (trace : Trace) :
    .whole trace ∈ scan traces ↔ trace ∈ traces := by
  simp [scan, ScanPoint.ofTrace]

theorem mem_scan_entry (traces : List Trace) (trace : Trace) (entry : LogEntry) :
    .entry trace entry ∈ scan traces ↔ trace ∈ traces ∧ entry ∈ trace.entries := by
  simp [scan, ScanPoint.ofTrace]

theorem sent_append (before after : List ScanPoint) :
    sent (before ++ after) = sent before ++ sent after :=
  List.filterMap_append

theorem sent_entries (trace : Trace) (entries : List LogEntry) :
    sent (entries.map (ScanPoint.entry trace)) =
      (History.broadcasts entries).map fun seq => ⟨trace.process, seq⟩ := by
  induction entries with
  | nil => rfl
  | cons entry rest ih =>
    obtain ⟨line, seq | message⟩ := entry
    next => exact congrArg (List.cons _) ih
    next => exact ih

theorem sent_scan (traces : List Trace) :
    sent (scan traces) = traces.flatMap fun trace =>
      (History.broadcasts trace.entries).map fun seq => ⟨trace.process, seq⟩ := by
  induction traces with
  | nil => rfl
  | cons trace rest ih =>
    rw [List.flatMap_cons, ← ih, ← sent_entries, ← sent_append]
    rfl

theorem mem_sent_scan (traces : List Trace) (message : Message) :
    message ∈ sent (scan traces) ↔ IsBroadcast traces message := by
  obtain ⟨sender, seq⟩ := message
  simp only [sent_scan, List.mem_flatMap, List.mem_map, Message.mk.injEq, IsBroadcast]
  constructor
  next =>
    rintro ⟨trace, member, _, broadcast, same, rfl⟩
    exact ⟨trace, member, same, broadcast⟩
  next =>
    rintro ⟨trace, member, same, broadcast⟩
    exact ⟨trace, member, seq, broadcast, same, rfl⟩

end BroadcastAudit.Causal
