/-!
Paths: names between slashes. A path that starts with a slash is absolute; the others are meant from
some base directory. Empty names and single dots stand for the directory they are in.
-/

namespace Multicast.Path

def segments (path : String) : List String := (path.toList.splitOn '/').map String.ofList

def isAbsolute (path : String) : Bool := path.toList.head? = some '/'

def join (base path : String) : String :=
  if isAbsolute path then path
  else match base.toList.getLast? with
    | none => path
    | some last => if last = '/' then base ++ path else base ++ "/" ++ path

/-- A segment that does not lead away from its directory. -/
def isIdle (segment : String) : Bool := segment = "" || segment = "."

def trimIdle (segments : List String) : List String := (segments.reverse.dropWhile isIdle).reverse

/-- The path of the directory that a path lies in. The first segment stands for the root or for the
place a relative path starts from, so it is idle only after its own removal. -/
def parent (path : String) : String :=
  match segments path with
  | [] => ""
  | first :: rest =>
    match trimIdle rest with
    | [] => ""
    | named =>
      match trimIdle named.dropLast with
      | [] => if first = "" then "/" else first
      | kept => "/".intercalate (first :: kept)

end Multicast.Path
