import Multicast.Route.Table
import Multicast.Total

/-!
The route tables of all nodes. Installing a tree adds one route per node of the tree, and changes
nothing if any of its nodes has no table.
-/

namespace Multicast

structure RoutingState where
  tables : Array RouteTable
deriving DecidableEq

namespace RoutingState

def empty (nodeCount : Nat) : RoutingState := ⟨(Array.range nodeCount).map RouteTable.empty⟩

def nodeCount (state : RoutingState) : Nat := state.tables.size

def table? (state : RoutingState) (node : NodeId) : Option RouteTable := state.tables[node]?

def routeCount (state : RoutingState) : Nat := total (state.tables.toList.map RouteTable.size)

def clear (state : RoutingState) : RoutingState := ⟨state.tables.map RouteTable.clear⟩

def installAt (state : RoutingState) (node : NodeId) (route : Route) : RoutingState :=
  ⟨state.tables.modify node (·.install route)⟩

end RoutingState

namespace Tree

def route (tree : Tree) (node : TreeNode) : Route :=
  ⟨tree.origin, tree.group, node.input, node.outputs⟩

end Tree

namespace RoutingState

/-- Install a tree, and tell how many routes it has. The state is there after a failure, too. -/
def installTreeInPlace (state : RoutingState) (tree : Tree) : Except RouteError Nat × RoutingState :=
  match tree.nodes.keys.find? (state.nodeCount ≤ ·) with
  | some node => (.error (.unknownNode node state.nodeCount), state)
  | none =>
    (.ok tree.nodes.size, tree.nodes.toList.foldl (fun installed entry => installed.installAt entry.1
      (tree.route entry.2)) state)

def installTree (state : RoutingState) (tree : Tree) : Except RouteError (RoutingState × Nat) :=
  match state.installTreeInPlace tree with
  | (.ok installed, later) => .ok (later, installed)
  | (.error error, _) => .error error

def arbitrate (state : RoutingState) (node source : NodeId) (origin : Origin) (group : GroupAddress) :
    Except RouteError Decision :=
  match state.table? node with
  | none => .error (.unknownNode node state.nodeCount)
  | some table => table.arbitrate source origin group

end RoutingState
end Multicast
