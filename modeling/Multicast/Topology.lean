import Multicast.Address

/-!
Roles of nodes, and link bindings. The lowest numbers are satellites and the rest are ground
stations. A link between a satellite and a ground station is a shared channel: a frame on it reaches
only the receivers that are bound to its group.
-/

namespace Multicast
open Std

structure NodeRoles where
  nodeCount : Nat
  satelliteCount : Nat
deriving DecidableEq, Inhabited

namespace NodeRoles

/-- There are never more satellites than nodes. -/
def ofCounts (nodeCount satelliteCount : Nat) : NodeRoles :=
  ⟨nodeCount, min satelliteCount nodeCount⟩

def terrestrial (nodeCount : Nat) : NodeRoles := ofCounts nodeCount 0

def isSatellite (roles : NodeRoles) (node : NodeId) : Bool := node < roles.satelliteCount

def isGroundStation (roles : NodeRoles) (node : NodeId) : Bool :=
  roles.satelliteCount ≤ node && node < roles.nodeCount

def stationCount (roles : NodeRoles) : Nat := roles.nodeCount - roles.satelliteCount

def station (roles : NodeRoles) (position : Nat) : NodeId := roles.satelliteCount + position

def firstStations (roles : NodeRoles) (count : Nat) : List NodeId :=
  (List.range (min count roles.stationCount)).map roles.station

def crossesGroundLink (roles : NodeRoles) (one other : NodeId) : Bool :=
  (roles.isSatellite one && roles.isGroundStation other) ||
    (roles.isGroundStation one && roles.isSatellite other)

end NodeRoles

/-- Frames that `sender` puts on `senderInterface` for `group` reach `receiver` on
`receiverInterface`. -/
structure LinkBinding where
  group : GroupAddress
  sender : NodeId
  senderInterface : InterfaceId
  receiver : NodeId
  receiverInterface : InterfaceId
deriving DecidableEq, Inhabited

namespace LinkBinding

def channel (binding : LinkBinding) : UInt32 × NodeId × InterfaceId :=
  (binding.group.word, binding.sender, binding.senderInterface)

def key (binding : LinkBinding) : UInt32 × NodeId × InterfaceId × NodeId × InterfaceId :=
  (binding.group.word, binding.sender, binding.senderInterface, binding.receiver,
    binding.receiverInterface)

instance : Ord LinkBinding where
  compare := compareOn key

instance : TransOrd LinkBinding := inferInstanceAs (TransCmp (compareOn key))

instance : LawfulEqOrd LinkBinding :=
  lawfulEqCmp_compareOn key fun first second same => by
    obtain ⟨⟨_⟩, _, _, _, _⟩ := first
    obtain ⟨⟨_⟩, _, _, _, _⟩ := second
    simp_all [key]

end LinkBinding
end Multicast
