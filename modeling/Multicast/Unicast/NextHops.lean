import Multicast.Identifier

/-!
Next hops. For each node and destination there is a list of neighbours to hand a packet to, the best
first; a missing or empty list drops the packet. Only the first neighbour is ever taken.
-/

namespace Multicast
open Std

structure NextHops where
  candidates : ExtTreeMap (NodeId × NodeId) (List NodeId)
deriving Inhabited

namespace NextHops

def empty : NextHops := ⟨∅⟩

def set (hops : NextHops) (node destination : NodeId) (candidates : List NodeId) : NextHops :=
  ⟨hops.candidates.insert (node, destination) candidates⟩

def drop (hops : NextHops) (node destination : NodeId) : NextHops :=
  ⟨hops.candidates.erase (node, destination)⟩

def towards (hops : NextHops) (node destination : NodeId) : List NodeId :=
  hops.candidates[(node, destination)]?.getD []

def first? (hops : NextHops) (node destination : NodeId) : Option NodeId :=
  (hops.towards node destination).head?

/-- The number of pairs with a list, an empty one included. -/
def size (hops : NextHops) : Nat := hops.candidates.size

def isEmpty (hops : NextHops) : Bool := hops.candidates.isEmpty

end NextHops
end Multicast
