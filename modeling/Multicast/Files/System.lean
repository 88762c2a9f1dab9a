/-!
File systems, as far as an experiment needs them: reading a file and writing one.
-/

namespace Multicast

inductive FileContent where
  | missing
  /-- It is there and cannot be opened. -/
  | unopened (reason : String)
  /-- It can be opened and not read, like a directory. -/
  | unreadable (reason : String)
  | bytes (content : List UInt8)
deriving DecidableEq, Inhabited

namespace FileContent

def missingReason : String := "No such file or directory (os error 2)"

def directoryReason : String := "Is a directory (os error 21)"

end FileContent

class FileSystem (m : Type → Type) where
  read : String → m FileContent
  /-- Replace the content of a file or make a new one; otherwise, why it cannot be done. -/
  write : String → List UInt8 → m (Except String Unit)

end Multicast
