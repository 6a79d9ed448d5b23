import BroadcastAudit.LogFile
import BroadcastAudit.MessageSets

set_option autoImplicit false

namespace BroadcastAudit

namespace LogFile

def readSent (log : LogFile) : Except Fault (Std.ExtTreeSet Nat) :=
  log.lines.foldlM (fun sent line =>
    match Event.read? line.text with
    | some (.broadcast seq) => .ok (sent.insert seq)
    | _ => .error (.notABroadcast (log.place line) line.span)) ∅

def readDelivered (log : LogFile) : Except Fault MessageSets :=
  log.lines.foldlM (fun delivered line =>
    match Event.read? line.text with
    | some (.deliver message) =>
      if delivered.contains message then .error (.repeatedDelivery (log.place line) message)
      else .ok (delivered.insert message)
    | _ => .error (.notADelivery (log.place line) line.span)) .empty

end LogFile

namespace Links

-- Names the least such message. That every message arrives in the end is not checked.
def checkSent (delivered sent : MessageSets) : Except Fault Unit :=
  match delivered.messages.find? (!sent.contains ·) with
  | some message => .error (.neverSent message)
  | none => .ok ()

structure Report where
  senders : Nat
  sent : Nat
  delivered : Nat
deriving DecidableEq

def Report.ofSets (sent delivered : MessageSets) : Report :=
  ⟨sent.senders, sent.size, delivered.size⟩

end Links

end BroadcastAudit
