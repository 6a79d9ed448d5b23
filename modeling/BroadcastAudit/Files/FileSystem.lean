import BroadcastAudit.LogFile
import BroadcastAudit.Path

set_option autoImplicit false

namespace BroadcastAudit

inductive FileEntry where
  /-- A regular file, with its text if it can be opened and its bytes are text. -/
  | file (text : Except Refusal String)
  /-- A directory, with the names in it if they can be listed. -/
  | directory (names : Except Refusal (List String))
  | other

def FileEntry.ofBytes (bytes : ByteArray) : FileEntry :=
  match String.fromUTF8? bytes with
  | some text => .file (.ok text)
  | none => .file (.error .notText)

-- What is found at each path, where symbolic links have been followed.
structure FileSystem where
  find : String → Except Refusal FileEntry

namespace FileSystem

def ofList (entries : List (String × FileEntry)) : FileSystem where
  find path :=
    match entries.lookup path with
    | some entry => .ok entry
    | none => .error .notFound

def isFile (files : FileSystem) (path : String) : Bool :=
  match files.find path with
  | .ok (.file _) => true
  | _ => false

def isDirectory (files : FileSystem) (path : String) : Bool :=
  match files.find path with
  | .ok (.directory _) => true
  | _ => false

def readText (files : FileSystem) (path : String) : Except Fault String :=
  match files.find path with
  | .ok (.file (.ok text)) => .ok text
  | .ok (.file (.error .notText)) => .error (.unreadable .readFile path .notText)
  | .ok (.file (.error refusal)) => .error (.unreadable .openFile path refusal)
  | .ok (.directory _) => .error (.unreadable .readFile path .isADirectory)
  | .ok .other => .error (.unreadable .openFile path .noDevice)
  | .error refusal => .error (.unreadable .openFile path refusal)

def readNames (files : FileSystem) (path : String) : Except Fault (List String) :=
  match files.find path with
  | .ok (.directory (.ok names)) => .ok names
  | .ok (.directory (.error refusal)) => .error (.unreadable .readDirectory path refusal)
  | .ok _ => .error (.unreadable .readDirectory path .notADirectory)
  | .error refusal => .error (.unreadable .readDirectory path refusal)

def readLog (files : FileSystem) (path : String) : Except Fault LogFile := do
  let text ← files.readText path
  return ⟨Path.fileName path, text⟩

end FileSystem

end BroadcastAudit
