import BroadcastAudit.Fault
import BroadcastAudit.Text.Numeral

set_option autoImplicit false

namespace BroadcastAudit

structure Hosts where
  ids : List ProcessId
  nodup : ids.Nodup
deriving DecidableEq

namespace Hosts

def empty : Hosts := ⟨[], .nil⟩

def contains (hosts : Hosts) (process : ProcessId) : Bool :=
  hosts.ids.contains process

def size (hosts : Hosts) : Nat :=
  hosts.ids.length

def readId? (line : List Char) : Option ProcessId :=
  (Text.fields line).head?.bind fun id => (Numeral.read? id).bind ProcessId.ofNat?

def add (file : String) (hosts : Hosts) (line : Text.Line) : Except Fault Hosts :=
  match readId? line.text with
  | none => .error (.badHosts ⟨file, line.number⟩ (.notProcess line.quoted))
  | some id =>
    if h : id ∈ hosts.ids then .error (.badHosts ⟨file, line.number⟩ (.listedTwice id))
    else .ok ⟨hosts.ids ++ [id], List.nodup_append.2 ⟨hosts.nodup, by simp, by
      rintro a mem b hb rfl
      exact h (List.mem_singleton.1 hb ▸ mem)⟩⟩

def parse (file text : String) : Except Fault Hosts :=
  (Text.lines text).foldlM (add file) empty

end Hosts

end BroadcastAudit
