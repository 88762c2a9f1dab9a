import Multicast.Order

/-!
Numbers that name things. Nodes are numbered densely from zero, interfaces are numbered on each node
with zero standing for none, and requests are numbered in the order of their schedule. Times are
counted in nanoseconds from the start of the run.
-/

namespace Multicast

abbrev NodeId := Nat

abbrev InterfaceId := Nat

abbrev RequestId := Nat

/-- Stands where a node has no interface, as on the input side of a source. -/
def noInterface : InterfaceId := 0

def lastInstant : Nat := UInt64.size - 1

def instantAfter (instant span : Nat) : Nat := min (instant + span) lastInstant

abbrev NodeSet := Std.ExtTreeSet NodeId

abbrev InterfaceSet := Std.ExtTreeSet InterfaceId

end Multicast
