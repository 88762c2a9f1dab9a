import Multicast.Event.Packet
import Multicast.Topology

/-!
Events of a run. At one instant timers come first, so the state of an epoch is complete before any
packet of that instant is decided, then packets that arrive, and then sources that send.
-/

namespace Multicast

/-- The rank of an event among those of its instant; the lower comes first. -/
inductive Priority where
  | internal
  | timer
  | network
  | traffic
deriving DecidableEq

namespace Priority

def rank : Priority → Nat
  | internal => 0
  | timer => 1
  | network => 2
  | traffic => 3

end Priority

inductive Timer where
  | refresh (epoch : Nat)
  | unbind (binding : LinkBinding)
deriving DecidableEq

inductive Event where
  | timer (timer : Timer)
  | burst (request : RequestId)
  /-- A packet arrives on an interface of the node the event is for. -/
  | arrival (packet : Packet) (interface : InterfaceId)
deriving DecidableEq

namespace Event

def priority : Event → Priority
  | .timer _ => .timer
  | .burst _ => .traffic
  | .arrival _ _ => .network

end Event
end Multicast
