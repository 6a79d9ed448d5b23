import BroadcastAudit.Causal.Run
import BroadcastAudit.Config.Hosts
import BroadcastAudit.Config.Links
import BroadcastAudit.Files.Outputs
import BroadcastAudit.Links

set_option autoImplicit false

namespace BroadcastAudit.FileSystem

variable (files : FileSystem)

def readDependencies (path : String) : Except Fault Dependencies := do
  Dependencies.parse (Path.fileName path) (← files.readText path)

def readHosts (path : String) : Except Fault Hosts := do
  Hosts.parse (Path.fileName path) (← files.readText path)

def readLinks (path : String) : Except Fault LinksConfig := do
  LinksConfig.parse (Path.fileName path) (← files.readText path)

def readTrace (process : ProcessId) (path : String) : Except Fault Trace := do
  let log ← files.readLog path
  return ⟨process, path, log.name, ← log.parse⟩

def auditFifo (dir : String) (processCount : Nat) : Except Fault Fifo.Report := do
  let outputs ← Outputs.ofDir files dir
  outputs.requireSize processCount
  let traces ← outputs.toList.mapM fun (process, path) => files.readTrace process path
  return .ofTraces traces

def readRun (dir config : String) : Except Fault (Dependencies × List Trace) := do
  let config ← files.readDependencies config
  let outputs ← Outputs.ofDir files dir
  -- As many files as processes, and one for each process: then there are no others.
  outputs.requireSize config.processCount
  let traces ← (ProcessId.all config.processCount).mapM fun process => do
    files.readTrace process (← outputs.pathOf process)
  return (config, traces)

def auditCausal (dir config : String) : Except Failure Causal.Run := do
  let (config, traces) ← (files.readRun dir config).mapError .fault
  Causal.Run.ofTraces config traces

def readSenders (outputs : Outputs) (senders : List ProcessId) : Except Fault MessageSets :=
  senders.foldlM (fun sent sender => do
    let log ← outputs.readLog files sender
    return sent.assign sender (← log.readSent)) .empty

def auditLinks (hosts config dir : String) : Except Fault Links.Report := do
  let listed ← files.readHosts hosts
  let links ← files.readLinks config
  if listed.contains links.receiver then
    let outputs ← Outputs.ofDir files dir
    outputs.requireSize listed.size
    let sent ← files.readSenders outputs (listed.ids.filter (· ≠ links.receiver))
    let log ← outputs.readLog files links.receiver
    let delivered ← log.readDelivered
    Links.checkSent delivered sent
    return .ofSets sent delivered
  else throw (.badConfig ⟨Path.fileName config, 1⟩ (.unlistedReceiver links.receiver))

end BroadcastAudit.FileSystem
