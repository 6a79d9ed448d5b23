import BroadcastAudit.Process
import BroadcastAudit.Text.Fields
import BroadcastAudit.Text.Numeral

set_option autoImplicit false

namespace BroadcastAudit

inductive Event where
  | broadcast (seq : Nat)
  | deliver (message : Message)
deriving DecidableEq

structure LogEntry where
  line : Nat
  event : Event
deriving DecidableEq

namespace Event

def text : Event → String
  | broadcast seq => s!"b {seq}"
  | deliver message => s!"d {message.sender} {message.seq}"

def read? (line : List Char) : Option Event :=
  match Text.fields line with
  | [['b'], seq] => (Numeral.read? seq).map broadcast
  | [['d'], sender, seq] => do
    let sender ← (Numeral.read? sender).bind ProcessId.ofNat?
    let seq ← Numeral.read? seq
    return deliver ⟨sender, seq⟩
  | _ => none

end Event

end BroadcastAudit
