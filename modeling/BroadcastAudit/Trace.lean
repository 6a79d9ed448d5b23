import BroadcastAudit.Event
import BroadcastAudit.Fault

set_option autoImplicit false

namespace BroadcastAudit

structure Trace where
  process : ProcessId
  path : String
  name : String
  entries : List LogEntry
deriving DecidableEq

namespace Trace

def place (trace : Trace) (entry : LogEntry) : Place :=
  ⟨trace.name, entry.line⟩

def checkSender (trace : Trace) (processCount : Nat) (entry : LogEntry) (sender : ProcessId) :
    Except Fault Unit :=
  if sender.val ≤ processCount then .ok ()
  else .error (.unknownSender (trace.place entry) sender processCount)

end Trace

end BroadcastAudit
