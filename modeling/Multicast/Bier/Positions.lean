import Multicast.Bier.Bitstring

/-!
Assignment of bit positions to nodes. A node has at most one position and a position belongs to at
most one node; the map is kept in both directions.
-/

namespace Multicast
open Std

structure BitPositions where
  byNode : ExtTreeMap NodeId Nat
  byPosition : ExtTreeMap Nat NodeId
deriving DecidableEq

namespace BitPositions

def empty : BitPositions := ⟨∅, ∅⟩

instance : Inhabited BitPositions := ⟨empty⟩

def positionOf? (assigned : BitPositions) (node : NodeId) : Option Nat := assigned.byNode[node]?

def nodeOf? (assigned : BitPositions) (position : Nat) : Option NodeId :=
  assigned.byPosition[position]?

def move (assigned : BitPositions) (node : NodeId) (position : Nat) : BitPositions :=
  let freed := match assigned.positionOf? node with
    | none => assigned.byPosition
    | some previous => assigned.byPosition.erase previous
  ⟨assigned.byNode.insert node position, freed.insert position node⟩

/-- Give a node a position instead of the one it has. A position of another node is refused. The map is
there after a refusal, too. -/
def assignInPlace (assigned : BitPositions) (node : NodeId) (position : Nat) :
    Except BierError Unit × BitPositions :=
  if bitCount ≤ position then (.error (.bitOutOfRange position), assigned)
  else
    let owner := (assigned.nodeOf? position).getD node
    if owner ≠ node then (.error (.duplicateBitPosition position owner node), assigned)
    else (.ok (), assigned.move node position)

def assign (assigned : BitPositions) (node : NodeId) (position : Nat) :
    Except BierError BitPositions :=
  match assigned.assignInPlace node position with
  | (.ok (), later) => .ok later
  | (.error error, _) => .error error

def sequential (nodes : List NodeId) : Except BierError BitPositions :=
  nodes.zipIdx.foldlM (fun assigned entry => assigned.assign entry.1 entry.2) empty

def bitstringFor (assigned : BitPositions) (nodes : List NodeId) : Except BierError Bitstring :=
  nodes.foldlM (fun bitstring node =>
    match assigned.positionOf? node with
    | none => .error (.unassignedNode node)
    | some position => bitstring.set position) .zero

def toList (assigned : BitPositions) : List (NodeId × Nat) := assigned.byNode.toList

def size (assigned : BitPositions) : Nat := assigned.byNode.size

def isEmpty (assigned : BitPositions) : Bool := assigned.byNode.isEmpty

end BitPositions
end Multicast
