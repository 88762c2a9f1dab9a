import Multicast.Text.Blank
import Multicast.Text.Line
import Multicast.Text.Numeral
import Multicast.Unicast.Source

/-!
State files. Each line that is not blank has five fields: a node, a target, the neighbour to hand
packets for the target to, and the interfaces at both ends of the link to it. Interfaces are counted
from zero in the file, and from one in a snapshot. Three times `-1` says that the target cannot be
reached. A file changes a snapshot line by line up to its first bad line.
-/

namespace Multicast
open Text

inductive UnicastRecord where
  | unreachable (node target : NodeId)
  | route (node target next : NodeId) (interface nextInterface : InterfaceId)
deriving DecidableEq

namespace UnicastRecord

def readNode (nodeCount : Nat) (what : String) (field : List Char) : Except RecordFault NodeId :=
  match readUInt32? (trim field) with
  | none => .error (.invalidNumber what field)
  | some node =>
    if node < nodeCount then .ok node else .error (.nodeOutside what node nodeCount)

def readSigned (what : String) (field : List Char) : Except RecordFault Int :=
  match readInt? (trim field) with
  | none => .error (.invalidNumber what field)
  | some value => .ok value

def readInterface (value : Int) : Except RecordFault InterfaceId :=
  if value + 1 < UInt32.size then .ok (value + 1).toNat else .error .interfaceOutOfRange

def ofFields (nodeCount : Nat) : List (List Char) → Except RecordFault UnicastRecord
  | [nodeField, targetField, nextField, interfaceField, nextInterfaceField] => do
    let node ← readNode nodeCount "current node" nodeField
    let target ← readNode nodeCount "target node" targetField
    let nextValue ← readSigned "next hop" nextField
    let value ← readSigned "interface" interfaceField
    let nextInterfaceValue ← readSigned "next hop interface" nextInterfaceField
    if nextValue = -1 ∧ value = -1 ∧ nextInterfaceValue = -1 then
      return .unreachable node target
    else if 0 ≤ nextValue ∧ 0 ≤ value ∧ 0 ≤ nextInterfaceValue then
      let next ← readNode nodeCount "next hop" nextField
      let interface ← readInterface value
      let nextInterface ← readInterface nextInterfaceValue
      return .route node target next interface nextInterface
    else .error .partlyUnreachable
  | fields => .error (.fieldCount fields.length)

def ofText (nodeCount : Nat) (text : List Char) : Except RecordFault UnicastRecord :=
  ofFields nodeCount (text.splitOn ',')

def apply (snapshot : Snapshot) : UnicastRecord → Snapshot
  | .unreachable node target => { snapshot with nextHops := snapshot.nextHops.drop node target }
  | .route node target next interface nextInterface =>
    { snapshot with nextHops := snapshot.nextHops.set node target [next] }.addLink
      node interface next nextInterface

end UnicastRecord

namespace Snapshot

/-- Apply the lines of a state file from the given line on. The number counts the records applied
so far; after a bad line the records before it stay. -/
def applyLines (line records : Nat) (snapshot : Snapshot) :
    List Line → Except SnapshotError Nat × Snapshot
  | [] => (.ok records, snapshot)
  | none :: _ => (.error (.malformed line (.unreadable invalidUtf8)), snapshot)
  | some text :: rest =>
    if isAllBlank text then snapshot.applyLines (line + 1) records rest
    else match UnicastRecord.ofText snapshot.nodeCount text with
      | .error fault => (.error (.malformed line fault), snapshot)
      | .ok record => (record.apply snapshot).applyLines (line + 1) (records + 1) rest

def applyFile (snapshot : Snapshot) (bytes : List UInt8) : Except SnapshotError Nat × Snapshot :=
  snapshot.applyLines 1 0 (lines bytes)

def ofFile (bytes : List UInt8) (epoch nodeCount : Nat) : Except SnapshotError Snapshot :=
  match (empty epoch nodeCount).applyFile bytes with
  | (.ok _, snapshot) => .ok snapshot
  | (.error error, _) => .error error

end Snapshot
end Multicast
