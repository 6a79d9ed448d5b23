import BroadcastAudit.CommandLine

set_option autoImplicit false

namespace BroadcastAudit

def Command.paths : Command → List String
  | .fifo _ dir => [dir]
  | .causal config dir => [config, dir]
  | .perfectLinks hosts config dir => [hosts, config, dir]

def Invocation.paths : Invocation → List String
  | .run command => command.paths
  | .version | .usageError => []

-- Error numbers come with either sign.
def Refusal.ofError (error : IO.Error) : Refusal :=
  match error with
  | .noFileOrDirectory .. => .notFound
  | .permissionDenied .. => .accessDenied
  | .noSuchThing .. => .noDevice
  | .inappropriateType _ code _ | .invalidArgument _ code _ =>
    match (min code (-code)).toNat with
    | 20 => .notADirectory
    | 21 => .isADirectory
    | 36 => .nameTooLong
    | 40 => .tooManyLinks
    | _ => .other (toString error)
  | _ => .other (toString error)

def refusing {α : Type} (action : IO α) : IO (Except Refusal α) := do
  try
    return .ok (← action)
  catch error => return .error (.ofError error)

def probeFile (path : String) : IO FileEntry := do
  match ← refusing (IO.FS.readBinFile path) with
  | .ok bytes => return .ofBytes bytes
  | .error refusal => return .file (.error refusal)

def probe (path : String) : IO (Except Refusal FileEntry) := do
  let root := (IO.FS.DirEntry.mk path "").root
  refusing do
    match (← root.metadata).type with
    | .file => probeFile path
    | .dir =>
      return .directory (← refusing do return (← root.readDir).toList.map (·.fileName))
    | _ => return .other

def snapshot (paths : List String) : IO FileSystem := do
  let mut found := #[]
  for path in paths do
    let entry ← probe path
    found := found.push (path, entry)
    if let .ok (.directory (.ok names)) := entry then
      for name in names.filter Outputs.isOutputName do
        let output := Path.join path name
        found := found.push (output, ← probe output)
  let entries := found.toList
  return ⟨fun path => (entries.lookup path).getD (.error .notFound)⟩

def usage : String :=
  "usage: fifo --proc_num <count> --out_dir <dir>\n" ++
  "       causal --config_file <file> --out_dir <dir>\n" ++
  "       perfect-links --hosts <file> --config <file> --out_dir <dir>"

end BroadcastAudit

open BroadcastAudit

def main (args : List String) : IO UInt32 := do
  let invocation := Invocation.read args
  let outcome := invocation.execute (← snapshot invocation.paths)
  IO.print outcome.stdout
  if let some error := outcome.error then IO.eprintln s!"Error: {error}"
  if outcome = .usageError then IO.eprintln usage
  return UInt32.ofNat outcome.exitCode
