import Multicast.Address
import Multicast.Bier.Header

/-!
Packets in flight. A packet carries its addressing, its hop limit and an encoded header, which every
node on the way decodes anew.
-/

namespace Multicast

structure Packet where
  request : RequestId
  source : NodeId
  origin : Origin
  group : GroupAddress
  hopLimit : Nat
  header : Bytes
deriving DecidableEq

def defaultHopLimit : Nat := 64

/-- The copy for the next hop, or none once the hop limit is spent. -/
def Packet.forwarded? (packet : Packet) (header : Bytes) : Option Packet :=
  if packet.hopLimit ≤ 1 then none
  else some { packet with hopLimit := packet.hopLimit - 1, header }

end Multicast
