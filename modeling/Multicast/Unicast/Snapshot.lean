import Multicast.Unicast.NextHops
import Multicast.Unicast.Interfaces

/-!
Unicast snapshots: the next hops and interfaces of all nodes during one epoch. Following the first
next hop again and again gives the path of a packet, which ends at its destination, fails at a hop
that cannot be resolved, or goes round in a loop.
-/

namespace Multicast

structure Snapshot where
  epoch : Nat
  nodeCount : Nat
  nextHops : NextHops
  interfaces : InterfaceMap
deriving Inhabited

inductive UnicastError where
  | unknownNode (node : NodeId) (nodeCount : Nat)
  | noRoute (node destination : NodeId)
  | notNeighbor (node neighbor : NodeId)
deriving DecidableEq

def UnicastError.message : UnicastError → String
  | .unknownNode node nodeCount =>
    s!"node {node} is out of range (topology has {nodeCount} nodes)"
  | .noRoute node destination => s!"no unicast route from node {node} towards node {destination}"
  | .notNeighbor node neighbor => s!"node {neighbor} is not an adjacent neighbor of node {node}"

structure NextHop where
  node : NodeId
  outInterface : InterfaceId
  inInterface : InterfaceId
deriving DecidableEq

structure Hop where
  sender : NodeId
  outInterface : InterfaceId
  receiver : NodeId
  inInterface : InterfaceId
deriving DecidableEq

inductive PathError where
  | loop (hops : Nat)
  | unresolved (error : UnicastError)
deriving DecidableEq

namespace Snapshot

def empty (epoch nodeCount : Nat) : Snapshot := ⟨epoch, nodeCount, .empty, .empty⟩

def addLink (snapshot : Snapshot) (one : NodeId) (oneInterface : InterfaceId) (other : NodeId)
    (otherInterface : InterfaceId) : Snapshot :=
  { snapshot with
    interfaces := (snapshot.interfaces.insert one other oneInterface).insert other one
      otherInterface }

def checkNode (snapshot : Snapshot) (node : NodeId) : Except UnicastError Unit :=
  if node < snapshot.nodeCount then .ok () else .error (.unknownNode node snapshot.nodeCount)

def nextHop (snapshot : Snapshot) (node destination : NodeId) : Except UnicastError NextHop := do
  snapshot.checkNode node
  snapshot.checkNode destination
  let some next := snapshot.nextHops.first? node destination
    | .error (.noRoute node destination)
  snapshot.checkNode next
  let some outInterface := snapshot.interfaces.interfaceTo? node next
    | .error (.notNeighbor node next)
  let some inInterface := snapshot.interfaces.interfaceTo? next node
    | .error (.notNeighbor next node)
  return ⟨next, outInterface, inInterface⟩

/-- The path from a node to a destination, of at most the given number of hops. A path that is
longer has visited some node twice, so it goes on forever. -/
def pathWithin (snapshot : Snapshot) (destination : NodeId) :
    (budget : Nat) → NodeId → Except PathError (List Hop)
  | budget, node =>
    if node = destination then .ok []
    else match budget with
      | 0 => .error (.loop snapshot.nodeCount)
      | budget + 1 =>
        match snapshot.nextHop node destination with
        | .error error => .error (.unresolved error)
        | .ok hop =>
          match snapshot.pathWithin destination budget hop.node with
          | .error error => .error error
          | .ok rest => .ok (⟨node, hop.outInterface, hop.node, hop.inInterface⟩ :: rest)

def path (snapshot : Snapshot) (source destination : NodeId) : Except PathError (List Hop) :=
  snapshot.pathWithin destination snapshot.nodeCount source

end Snapshot
end Multicast
