import BroadcastAudit.Config.Numbers
import BroadcastAudit.Fault

set_option autoImplicit false

namespace BroadcastAudit

structure LinksConfig where
  messageCount : Nat
  receiver : ProcessId
deriving DecidableEq

-- Nothing after the first line is read.
def LinksConfig.parse (file text : String) : Except Fault LinksConfig :=
  match Text.lines text with
  | [] => .error (.badConfig ⟨file, 1⟩ .noReceiver)
  | header :: _ =>
    match Config.numbers? header with
    | some [messageCount, receiver] =>
      match ProcessId.ofNat? receiver with
      | some receiver => .ok ⟨messageCount, receiver⟩
      | none => .error (.badConfig ⟨file, header.number⟩ .nonPositiveReceiver)
    | _ => .error (.badConfig ⟨file, header.number⟩ (.notReceiver header.quoted))

end BroadcastAudit
