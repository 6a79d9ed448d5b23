import BroadcastAudit.Text.Fields

set_option autoImplicit false

namespace BroadcastAudit.Path

def components (path : String) : List String :=
  (Text.pieces (· == '/') path.toList).map String.ofList

def isAbsolute (path : String) : Bool :=
  path.toList.head? == some '/'

def join (dir name : String) : String :=
  if dir.isEmpty || dir.toList.getLast? == some '/' then dir ++ name else dir ++ "/" ++ name

-- The last component that says anything; a path without one, or one that goes up at the end,
-- stands for itself.
def fileName (path : String) : String :=
  match ((components path).filter fun part => part != "" && part != ".").getLast? with
  | none | some ".." => path
  | some name => name

end BroadcastAudit.Path
