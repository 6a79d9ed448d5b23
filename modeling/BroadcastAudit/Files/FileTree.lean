import BroadcastAudit.Files.FileSystem

set_option autoImplicit false

namespace BroadcastAudit

inductive FileNode where
  | file (contents : ByteArray)
  | directory
  | link (target : String)

abbrev Location := List String

structure FileTree where
  home : Location
  nodes : List (Location × FileNode)

namespace FileTree

def empty (home : Location) : FileTree where
  home := home
  nodes := (List.range home.length).map fun depth => (home.take (depth + 1), .directory)

def node? (tree : FileTree) (location : Location) : Option FileNode :=
  if location.isEmpty then some .directory else tree.nodes.lookup location

def put (tree : FileTree) (location : Location) (node : FileNode) : FileTree :=
  { tree with
    nodes := (tree.nodes.filter fun (other, _) => other != location) ++ [(location, node)] }

def erase (tree : FileTree) (location : Location) : FileTree :=
  { tree with nodes := tree.nodes.filter fun (other, _) => !location.isPrefixOf other }

def names (tree : FileTree) (location : Location) : List String :=
  tree.nodes.filterMap fun (other, _) =>
    if other.dropLast == location then other.getLast? else none

def maxName : Nat := 255

def maxPath : Nat := 4095

def maxLinks : Nat := 40

-- Follows components from a directory; `followLink` takes over at a link. The result is where the
-- path ends, where there may be nothing yet. A link at the end is followed if `followLast` says so.
def walkWith (tree : FileTree) (followLast : Bool)
    (followLink : Location → List String → Except Refusal Location) :
    Location → List String → Except Refusal Location
  | here, [] => .ok here
  | here, name :: rest =>
    if name = "" ∨ name = "." then tree.walkWith followLast followLink here rest
    else if name = ".." then tree.walkWith followLast followLink here.dropLast rest
    else if maxName < name.utf8ByteSize then .error .nameTooLong
    else
      match tree.node? (here ++ [name]) with
      | some .directory => tree.walkWith followLast followLink (here ++ [name]) rest
      | some (.link target) =>
        if rest.isEmpty && !followLast then .ok (here ++ [name])
        else
          -- A relative target starts in the directory that holds the link.
          followLink (if Path.isAbsolute target then [] else here)
            (Path.components target ++ rest)
      | some (.file _) => if rest.isEmpty then .ok (here ++ [name]) else .error .notADirectory
      | none => if rest.isEmpty then .ok (here ++ [name]) else .error .notFound

def walk (tree : FileTree) (followLast : Bool) : Nat → Location → List String →
    Except Refusal Location
  | 0 => tree.walkWith followLast fun _ _ => .error .tooManyLinks
  | links + 1 => tree.walkWith followLast (tree.walk followLast links)

def locate (tree : FileTree) (followLast : Bool) (path : String) : Except Refusal Location :=
  if path.isEmpty then .error .notFound
  else if path.toList.contains (Char.ofNat 0) then .error .nulByte
  else if maxPath < path.utf8ByteSize then .error .nameTooLong
  else
    tree.walk followLast maxLinks (if Path.isAbsolute path then [] else tree.home)
      (Path.components path)

def find (tree : FileTree) (path : String) : Except Refusal FileEntry := do
  let location ← tree.locate true path
  match tree.node? location with
  | some (.file contents) => return .ofBytes contents
  | some .directory => return .directory (.ok (tree.names location))
  | some (.link _) | none => throw .notFound

def toFileSystem (tree : FileTree) : FileSystem :=
  ⟨tree.find⟩

def makeMissing (tree : FileTree) (path : String) : FileTree :=
  match tree.locate true path with
  | .ok location => if (tree.node? location).isNone then tree.put location .directory else tree
  | .error _ => tree

def makeParents (tree : FileTree) (path : String) : FileTree :=
  let components := Path.components path
  (List.range' 1 (components.length - 1)).foldl
    (fun tree depth => tree.makeMissing ("/".intercalate (components.take depth))) tree

def makeDirectory (tree : FileTree) (path : String) : FileTree :=
  (tree.makeParents path).makeMissing path

def place (tree : FileTree) (followLast : Bool) (path : String) (node : FileNode) : FileTree :=
  let tree := tree.makeParents path
  match tree.locate followLast path with
  | .ok location => tree.put location node
  | .error _ => tree

def write (tree : FileTree) (path : String) (contents : ByteArray) : FileTree :=
  tree.place true path (.file contents)

def link (tree : FileTree) (path target : String) : FileTree :=
  tree.place false path (.link target)

def remove (tree : FileTree) (path : String) : FileTree :=
  match tree.locate false path with
  | .ok location => tree.erase location
  | .error _ => tree

end FileTree

end BroadcastAudit
