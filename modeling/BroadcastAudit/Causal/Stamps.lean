import BroadcastAudit.Config.Dependencies
import BroadcastAudit.Trace
import BroadcastAudit.VectorClock

set_option autoImplicit false

namespace BroadcastAudit

abbrev Stamps := Std.ExtTreeMap Message VectorClock

namespace Causal

-- In a stamp the slot of the sender counts its earlier broadcasts, and any other slot its earlier
-- deliveries from that process, if it depends on it.
structure Sending where
  past : VectorClock
  broadcasts : Nat
  stamps : Stamps

namespace Sending

def start (processCount : Nat) (stamps : Stamps) : Sending :=
  ⟨.zero processCount, 0, stamps⟩

def broadcast (sending : Sending) (trace : Trace) (entry : LogEntry) (seq : Nat) :
    Except Failure Sending := do
  -- Deliveries of the sender's own messages leave no mark in the stamp.
  let stamp ← (sending.past.set trace.process sending.broadcasts).mapError .misuse
  let message : Message := ⟨trace.process, seq⟩
  if message ∈ sending.stamps then
    throw (.fault (.repeatedBroadcast (trace.place entry) message))
  else
    return { sending with
      broadcasts := sending.broadcasts + 1
      stamps := sending.stamps.insert message stamp }

def deliver (config : Dependencies) (sending : Sending) (trace : Trace) (entry : LogEntry)
    (sender : ProcessId) : Except Failure Sending := do
  (trace.checkSender config.processCount entry sender).mapError .fault
  if ← (config.depends trace.process sender).mapError .misuse then
    let past ← (sending.past.increment sender).mapError .misuse
    return { sending with past }
  else return sending

def step (config : Dependencies) (trace : Trace) (sending : Sending) (entry : LogEntry) :
    Except Failure Sending :=
  match entry.event with
  | .broadcast seq => sending.broadcast trace entry seq
  | .deliver message => sending.deliver config trace entry message.sender

end Sending

def replay (config : Dependencies) (stamps : Stamps) (trace : Trace) : Except Failure Stamps := do
  if config.processCount < trace.process.val then
    throw (.fault (.unknownLog trace.name trace.process config.processCount))
  else
    let sending ←
      trace.entries.foldlM (Sending.step config trace) (.start config.processCount stamps)
    return sending.stamps

end Causal

def Stamps.recover (config : Dependencies) (traces : List Trace) : Except Failure Stamps :=
  traces.foldlM (Causal.replay config) ∅

end BroadcastAudit
