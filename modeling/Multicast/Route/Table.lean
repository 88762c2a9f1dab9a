import Multicast.Tree

/-!
Multicast route tables. A table lists routes in the order their keys were first installed, a key
being the origin, the group and the input interface. A packet is decided by its group alone: the
first route of the group wins, whatever its origin and input interface.
-/

namespace Multicast
open Std

inductive RouteError where
  | severalEgresses (node : NodeId) (group : GroupAddress) (count : Nat)
  | unknownNode (node : NodeId) (nodeCount : Nat)
deriving DecidableEq

def RouteError.message : RouteError → String
  | .severalEgresses node group count =>
    s!"node {node}: route for {group} originates on {count} interfaces, expected exactly 1"
  | .unknownNode node nodeCount =>
    s!"node {node} is outside the routing state of {nodeCount} nodes"

structure Route where
  origin : Origin
  group : GroupAddress
  input : InterfaceId
  outputs : InterfaceSet
deriving DecidableEq

inductive Decision where
  /-- The node is the source and sends one copy. -/
  | outbound (interface : InterfaceId)
  /-- The node sends a copy on each interface; a leaf has none. -/
  | forward (interfaces : List InterfaceId)
  | noRoute
deriving DecidableEq

namespace Route

def sameKey (one other : Route) : Bool :=
  one.origin = other.origin && one.group = other.group && one.input = other.input

def merge (route added : Route) : Route :=
  { route with outputs := added.outputs.toList.foldl (·.insert ·) route.outputs }

/-- Add a route to a list, into the route with its key if there is one. -/
def install (added : Route) : List Route → List Route
  | [] => [added]
  | route :: rest =>
    if route.sameKey added then route.merge added :: rest else route :: install added rest

end Route

structure RouteTable where
  node : NodeId
  routes : List Route
deriving DecidableEq

namespace RouteTable

def empty (node : NodeId) : RouteTable := ⟨node, []⟩

def size (table : RouteTable) : Nat := table.routes.length

def isEmpty (table : RouteTable) : Bool := table.routes.isEmpty

def install (table : RouteTable) (route : Route) : RouteTable :=
  { table with routes := route.install table.routes }

def clear (table : RouteTable) : RouteTable := { table with routes := [] }

def find? (table : RouteTable) (group : GroupAddress) : Option Route :=
  table.routes.find? (·.group = group)

def arbitrate (table : RouteTable) (source : NodeId) (_origin : Origin) (group : GroupAddress) :
    Except RouteError Decision :=
  match table.find? group with
  | none => .ok .noRoute
  | some route =>
    if source = table.node then
      match Tree.singleEgress? route.outputs with
      | some interface => .ok (.outbound interface)
      | none => .error (.severalEgresses table.node group route.outputs.size)
    else .ok (.forward (route.outputs.toList.filter (· ≠ noInterface)))

end RouteTable
end Multicast
