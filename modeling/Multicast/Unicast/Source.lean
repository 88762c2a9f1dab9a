import Multicast.Text.Quoted
import Multicast.Unicast.Snapshot

/-!
Sources of snapshots. A source yields the snapshot of an epoch or tells why there is none, and may
change as it does so. A series of snapshots in memory serves every epoch from the latest snapshot
that is not after it, so one snapshot at zero describes a network that never changes.
-/

namespace Multicast
open Std Text

inductive RecordFault where
  | unreadable (reason : String)
  | fieldCount (found : Nat)
  | invalidNumber (what : String) (text : List Char)
  | nodeOutside (what : String) (node nodeCount : Nat)
  | interfaceOutOfRange
  | partlyUnreachable
deriving DecidableEq

def RecordFault.message : RecordFault → String
  | .unreadable reason => reason
  | .fieldCount found => s!"expected 5 fields, found {found}"
  | .invalidNumber what text => s!"invalid {what} {quote text}"
  | .nodeOutside what node nodeCount => s!"{what} {node} outside 0..{nodeCount}"
  | .interfaceOutOfRange => "interface index out of range"
  | .partlyUnreachable => "next hop and interfaces must all be -1 or all be valid"

inductive SnapshotError where
  | missing (epoch : Nat)
  | unreadable (path reason : String)
  | malformed (line : Nat) (fault : RecordFault)
deriving DecidableEq

def SnapshotError.message : SnapshotError → String
  | .missing epoch => s!"no unicast snapshot available for epoch {epoch} ns"
  | .unreadable path reason => s!"failed to read unicast snapshot {path}: {reason}"
  | .malformed line fault => s!"malformed unicast snapshot line {line}: {fault.message}"

class SnapshotSource (σ : Type) where
  load : σ → Nat → Except SnapshotError Snapshot × σ

structure SnapshotSeries where
  snapshots : ExtTreeMap Nat Snapshot
deriving Inhabited

namespace SnapshotSeries

def empty : SnapshotSeries := ⟨∅⟩

def insert (series : SnapshotSeries) (snapshot : Snapshot) : SnapshotSeries :=
  ⟨series.snapshots.insert snapshot.epoch snapshot⟩

def fixed (snapshot : Snapshot) : SnapshotSeries := empty.insert { snapshot with epoch := 0 }

def latest? (series : SnapshotSeries) (epoch : Nat) : Option Snapshot :=
  match (series.snapshots.filter fun start _ => start ≤ epoch).maxKey? with
  | none => none
  | some start => series.snapshots[start]?

instance : SnapshotSource SnapshotSeries where
  load series epoch :=
    match series.latest? epoch with
    | none => (.error (.missing epoch), series)
    | some snapshot => (.ok { snapshot with epoch }, series)

end SnapshotSeries
end Multicast
