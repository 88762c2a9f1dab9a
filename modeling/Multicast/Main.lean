import Multicast.CommandLine.Run

/-!
The command-line program.
-/

namespace Multicast

def contentOfError : IO.Error → FileContent
  | .noFileOrDirectory .. => .missing
  | .inappropriateType .. => .unreadable FileContent.directoryReason
  | error => .unopened (toString error)

instance : FileSystem IO where
  read path := do
    try
      return .bytes (← IO.FS.readBinFile path).data.toList
    catch error =>
      return contentOfError error
  write path content := do
    try
      IO.FS.writeBinFile path ⟨content.toArray⟩
      return .ok ()
    catch error =>
      return .error (toString error)

end Multicast

open Multicast in
def main (arguments : List String) : IO UInt32 := do
  let outcome ← CommandLine.execute (m := IO) arguments
  IO.print outcome.output
  IO.eprint outcome.diagnostics
  return outcome.exitCode.toUInt32
