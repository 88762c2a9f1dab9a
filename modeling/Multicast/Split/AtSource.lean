import Multicast.Split.Tag
import Multicast.Tree

/-!
Splitting at the source. A source sends one copy per packet, so a request whose destinations are
reached through several first hops has no tree. Its destinations are grouped by the neighbour and the
interface of the first hop, and each group becomes a request of its own.
-/

namespace Multicast
open Std

namespace Request

abbrev Groups := ExtTreeMap (NodeId × InterfaceId) NodeSet

def addToGroup (request : Request) (snapshot : Snapshot) (groups : Groups)
    (destination : NodeId) : Except TreeError Groups :=
  if destination = request.source then .error (.selfDestination request.id destination)
  else match snapshot.nextHop request.source destination with
    | .error error => .error (.unicast request.id error)
    | .ok hop =>
      let way := (hop.node, hop.outInterface)
      .ok (groups.insert way ((groups[way]?.getD ∅).insert destination))

def sourceGroups (request : Request) (snapshot : Snapshot) : Except TreeError Groups :=
  request.destinations.toList.foldlM (request.addToGroup snapshot) ∅

def part (request : Request) (destinations : NodeSet) : Request :=
  { request with destinations, metadata := OriginTag.tag request.metadata request.id }

/-- One part per first hop. The parts keep the number of the request. -/
def splitAtSource (request : Request) (snapshot : Snapshot) : Except TreeError (List Request) := do
  let groups ← request.sourceGroups snapshot
  return groups.toList.map fun group => request.part group.2

end Request

def splitSchedule (requests : List Request) (snapshot : Snapshot) :
    Except TreeError (List Request) := do
  let parts ← requests.mapM (·.splitAtSource snapshot)
  return renumber parts.flatten

end Multicast
