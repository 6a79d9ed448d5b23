import BroadcastAudit.Files.FileSystem
import BroadcastAudit.Text.Numeral

set_option autoImplicit false

namespace BroadcastAudit

structure DirEntry where
  name : String
  path : String
  isFile : Except Refusal Bool

structure Outputs where
  files : Std.ExtTreeMap ProcessId String

namespace Outputs

def ending : List Char :=
  ".output".toList

def isOutputName (name : String) : Bool :=
  ending.isSuffixOf name.toList

def processOf? (name : String) : Option ProcessId :=
  let name := name.toList
  (Numeral.read? (name.take (name.length - ending.length))).bind ProcessId.ofNat?

def empty : Outputs := ⟨∅⟩

def add (outputs : Outputs) (entry : DirEntry) : Except Fault Outputs :=
  -- What stands at a path matters only if the name has the ending.
  if isOutputName entry.name then
    match entry.isFile with
    | .error refusal => .error (.unreadable .queryMetadata entry.path refusal)
    | .ok false => .ok outputs
    | .ok true =>
      match processOf? entry.name with
      | none => .error (.badOutputName entry.path)
      | some process =>
        if process ∈ outputs.files then .error (.badOutputName entry.path)
        else .ok ⟨outputs.files.insert process entry.path⟩
  else .ok outputs

def ofEntries (entries : List DirEntry) : Except Fault Outputs :=
  entries.foldlM add empty

def entry (files : FileSystem) (dir name : String) : DirEntry :=
  let path := Path.join dir name
  ⟨name, path, match files.find path with
    | .ok (.file _) => .ok true
    | .ok _ => .ok false
    | .error refusal => .error refusal⟩

def ofDir (files : FileSystem) (dir : String) : Except Fault Outputs := do
  let names ← files.readNames dir
  ofEntries (names.map (entry files dir))

def size (outputs : Outputs) : Nat :=
  outputs.files.size

def requireSize (outputs : Outputs) (expected : Nat) : Except Fault Unit :=
  if outputs.size = expected then .ok ()
  else .error (.wrongOutputCount outputs.size expected)

def pathOf (outputs : Outputs) (process : ProcessId) : Except Fault String :=
  match outputs.files[process]? with
  | some path => .ok path
  | none => .error (.noOutput process)

def toList (outputs : Outputs) : List (ProcessId × String) :=
  outputs.files.toList

def readLog (outputs : Outputs) (files : FileSystem) (process : ProcessId) :
    Except Fault LogFile := do
  files.readLog (← outputs.pathOf process)

end Outputs

end BroadcastAudit
