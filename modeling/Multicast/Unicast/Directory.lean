import Multicast.Files.Path
import Multicast.Files.System
import Multicast.Unicast.Record

/-!
Directories of state files. There is one file for each epoch. The first one loaded describes the
whole state and each later one only what changed, so a file is applied on top of the last snapshot
that was loaded. A file that fails to apply leaves that snapshot as it was.
-/

namespace Multicast
open Std

structure StateDirectory where
  path : String
  nodeCount : Nat
  file : Nat → FileContent
  current : Option Snapshot

namespace StateDirectory

def fileName (epoch : Nat) : String := s!"fstate_{epoch}.txt"

def ofFiles (path : String) (nodeCount : Nat) (file : Nat → FileContent) : StateDirectory :=
  ⟨path, nodeCount, file, none⟩

def filePath (path : String) (epoch : Nat) : String := Path.join path (fileName epoch)

def base (directory : StateDirectory) (epoch : Nat) : Snapshot :=
  match directory.current with
  | none => .empty epoch directory.nodeCount
  | some snapshot => { snapshot with epoch }

def load (directory : StateDirectory) (epoch : Nat) :
    Except SnapshotError Snapshot × StateDirectory :=
  match directory.file epoch with
  | .missing => (.error (.missing epoch), directory)
  | .unopened reason => (.error (.unreadable (filePath directory.path epoch) reason), directory)
  | .unreadable reason => (.error (.malformed 1 (.unreadable reason)), directory)
  | .bytes content =>
    match (directory.base epoch).applyFile content with
    | (.error error, _) => (.error error, directory)
    | (.ok _, snapshot) => (.ok snapshot, { directory with current := some snapshot })

instance : SnapshotSource StateDirectory := ⟨load⟩

section
variable {m : Type → Type} [Monad m] [FileSystem m]

/-- Read the files of the given number of epochs from the given one on. None is read after a missing
one, since nothing is loaded after an epoch without state. -/
def readFiles (path : String) (interval : Nat) :
    (count epoch : Nat) → ExtTreeMap Nat FileContent → m (ExtTreeMap Nat FileContent)
  | 0, _, files => pure files
  | count + 1, epoch, files => do
    match ← FileSystem.read (filePath path epoch) with
    | .missing => pure files
    | content => readFiles path interval count (epoch + interval) (files.insert epoch content)

/-- The directory at a path, with the files of the epochs `0, interval, 2 * interval, ...`. -/
def read (path : String) (nodeCount interval count : Nat) : m StateDirectory := do
  let files ← readFiles path interval count 0 ∅
  return ofFiles path nodeCount fun epoch => files[epoch]?.getD .missing

end

end StateDirectory
end Multicast
