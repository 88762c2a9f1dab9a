import Multicast.Identifier

/-!
Group addresses and origins. A request's group is a base address plus the request's number, taken
in 32 bits, so requests whose numbers agree modulo `2 ^ 32` share a group.
-/

namespace Multicast

/-- An IPv4 address as one word, the first octet highest. -/
structure GroupAddress where
  word : UInt32
deriving DecidableEq, Inhabited

namespace GroupAddress

def ofOctets (first second third fourth : UInt8) : GroupAddress :=
  ⟨first.toUInt32 <<< 24 ||| second.toUInt32 <<< 16 ||| third.toUInt32 <<< 8 ||| fourth.toUInt32⟩

def routeBase : GroupAddress := ofOctets 225 1 2 4

def bierBase : GroupAddress := ofOctets 233 0 0 0

/-- The one address of all packets that carry a bitstring. -/
def bierMarker : GroupAddress := ofOctets 239 255 254 254

def forRequest (base : GroupAddress) (request : RequestId) : GroupAddress :=
  ⟨base.word + UInt32.ofNat request⟩

def requestId? (group base : GroupAddress) : Option RequestId :=
  if base.word ≤ group.word then some (group.word - base.word).toNat else none

def octets (group : GroupAddress) : List Nat :=
  [24, 16, 8, 0].map fun shift => (group.word.toNat >>> shift) % 256

instance : ToString GroupAddress where
  toString group := ".".intercalate (group.octets.map toString)

end GroupAddress

/-- A source node and the interface its packets leave on. -/
structure Origin where
  node : NodeId
  interface : InterfaceId
deriving DecidableEq, Inhabited

instance : ToString Origin where
  toString origin := s!"node{origin.node}/if{origin.interface}"

end Multicast
