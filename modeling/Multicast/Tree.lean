import Multicast.Request
import Multicast.Unicast.Snapshot

/-!
Multicast trees. The tree of a request is the union of the paths from its source to its destinations.
It has the hops of all paths, and for each node on a path the interface it is entered on and the
interfaces copies leave on. The source emits one copy per packet, so all paths have to leave it on
the same interface.
-/

namespace Multicast
open Std

namespace Hop

def key (hop : Hop) : NodeId × InterfaceId × NodeId × InterfaceId :=
  (hop.sender, hop.outInterface, hop.receiver, hop.inInterface)

instance : Ord Hop where
  compare := compareOn key

instance : TransOrd Hop := inferInstanceAs (TransCmp (compareOn key))

instance : LawfulEqOrd Hop :=
  lawfulEqCmp_compareOn key fun first second same => by
    cases first
    cases second
    simp_all [key]

end Hop

inductive TreeError where
  | selfDestination (request : RequestId) (node : NodeId)
  | noDestinations (request : RequestId)
  | routingLoop (request : RequestId) (destination : NodeId) (hops : Nat)
  | severalEgresses (request : RequestId) (node : NodeId) (count : Nat)
  | unicast (request : RequestId) (error : UnicastError)
deriving DecidableEq

def TreeError.message : TreeError → String
  | .selfDestination request node => s!"request {request} lists its source {node} as a destination"
  | .noDestinations request => s!"request {request} has no destinations"
  | .routingLoop request destination hops =>
    s!"request {request}: routing loop towards {destination} after {hops} hops"
  | .severalEgresses request node count =>
    s!"request {request}: source {node} needs {count} output interfaces, expected exactly 1"
  | .unicast request error => s!"request {request}: {error.message}"

/-- A node of a tree. A source is entered on no interface, and a leaf has no outputs. -/
structure TreeNode where
  input : InterfaceId
  outputs : InterfaceSet
deriving DecidableEq

structure Tree where
  request : RequestId
  source : NodeId
  group : GroupAddress
  origin : Origin
  nodes : ExtTreeMap NodeId TreeNode
  hops : ExtTreeSet Hop
deriving DecidableEq

namespace Tree

def unvisited : TreeNode := ⟨noInterface, ∅⟩

def extend (nodes : ExtTreeMap NodeId TreeNode) (hop : Hop) : ExtTreeMap NodeId TreeNode :=
  let sender := nodes[hop.sender]?.getD unvisited
  let left := nodes.insert hop.sender { sender with outputs := sender.outputs.insert hop.outInterface }
  let receiver := left[hop.receiver]?.getD unvisited
  left.insert hop.receiver { receiver with input := hop.inInterface }

/-- The nodes of a tree with the given hops in the order they are walked. Where paths meet, the last
one walked decides the input. -/
def nodesOf (source : NodeId) (hops : List Hop) : ExtTreeMap NodeId TreeNode :=
  let walked := hops.foldl extend ((∅ : ExtTreeMap NodeId TreeNode).insert source unvisited)
  walked.insert source { walked[source]?.getD unvisited with input := noInterface }

def pathTo (request : Request) (snapshot : Snapshot) (destination : NodeId) :
    Except TreeError (List Hop) :=
  match snapshot.path request.source destination with
  | .ok hops => .ok hops
  | .error (.loop hops) => .error (.routingLoop request.id destination hops)
  | .error (.unresolved error) => .error (.unicast request.id error)

def paths (request : Request) (snapshot : Snapshot) : Except TreeError (List (List Hop)) :=
  request.destinations.toList.mapM (pathTo request snapshot)

def singleEgress? (outputs : InterfaceSet) : Option InterfaceId :=
  match outputs.toList with
  | [interface] => some interface
  | _ => none

def build (request : Request) (snapshot : Snapshot) : Except TreeError Tree := do
  if request.destinations.isEmpty then
    throw (.noDestinations request.id)
  if request.source ∈ request.destinations then
    throw (.selfDestination request.id request.source)
  let hops := (← paths request snapshot).flatten
  let nodes := nodesOf request.source hops
  let outputs := (nodes[request.source]?.getD unvisited).outputs
  let some egress := singleEgress? outputs
    | throw (.severalEgresses request.id request.source outputs.size)
  return {
    request := request.id
    source := request.source
    group := request.group .routeBase
    origin := ⟨request.source, egress⟩
    nodes := nodes
    hops := ExtTreeSet.ofList hops }

end Tree
end Multicast
