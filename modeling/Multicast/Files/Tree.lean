import Multicast.Files.Path
import Multicast.Files.System

/-!
Files in memory. A directory exists where a file lies under it, and at the working directory. Paths
are followed from directory to directory, so a path through a file or a missing directory leads
nowhere, even if it turns back.
-/

namespace Multicast

structure FileTree where
  /-- Files by the names on the way to them from the root. -/
  files : List (List String × List UInt8)
  working : List String
deriving DecidableEq, Inhabited

namespace FileTree

def isDirectory (tree : FileTree) (location : List String) : Bool :=
  location.isPrefixOf tree.working ||
    tree.files.any fun file => location.isPrefixOf file.1 && location ≠ file.1

def follow (tree : FileTree) (location : List String) : List String → Option (List String)
  | [] => some location
  | segment :: rest =>
    if !tree.isDirectory location then none
    else if Path.isIdle segment then tree.follow location rest
    else if segment = ".." then tree.follow location.dropLast rest
    else tree.follow (location ++ [segment]) rest

def origin (tree : FileTree) (path : String) : List String :=
  if Path.isAbsolute path then [] else tree.working

def locate (tree : FileTree) (path : String) : Option (List String) :=
  if path = "" then none else tree.follow (tree.origin path) (Path.segments path)

def read (tree : FileTree) (path : String) : FileContent :=
  match tree.locate path with
  | none => .missing
  | some location =>
    match tree.files.lookup location with
    | some content => .bytes content
    | none =>
      if tree.isDirectory location then .unreadable FileContent.directoryReason else .missing

def insert (tree : FileTree) (location : List String) (content : List UInt8) : FileTree :=
  { tree with files := (location, content) :: tree.files.filter (·.1 ≠ location) }

def target? (tree : FileTree) (path : String) : Option (List String) :=
  let segments := Path.segments path
  let name := segments.getLastD ""
  match tree.follow (tree.origin path) segments.dropLast with
  | none => none
  | some directory =>
    let location := directory ++ [name]
    if Path.isIdle name || name = ".." || !tree.isDirectory directory || tree.isDirectory location then
      none
    else some location

def write (tree : FileTree) (path : String) (content : List UInt8) :
    Except String Unit × FileTree :=
  match tree.target? path with
  | none => (.error FileContent.missingReason, tree)
  | some location => (.ok (), tree.insert location content)

def ofFiles (working : List String) (files : List (String × List UInt8)) : FileTree :=
  ⟨files.map fun file => (working ++ Path.segments file.1, file.2), working⟩

instance : FileSystem (StateM FileTree) where
  read path := do return (← get).read path
  write path content := do
    let (result, tree) := (← get).write path content
    set tree
    return result

end FileTree
end Multicast
