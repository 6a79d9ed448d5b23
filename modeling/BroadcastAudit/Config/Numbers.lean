import BroadcastAudit.Text.Line
import BroadcastAudit.Text.Numeral

set_option autoImplicit false

namespace BroadcastAudit.Config

def numbers? (line : Text.Line) : Option (List Nat) :=
  match Text.fields line.text with
  | [] => none
  | first :: rest => (first :: rest).mapM Numeral.read?

end BroadcastAudit.Config
