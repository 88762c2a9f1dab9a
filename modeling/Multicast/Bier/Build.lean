import Multicast.Bier.Positions
import Multicast.Bier.Table
import Multicast.Unicast.Snapshot

/-!
Forwarding tables from unicast state. At each node the assigned destinations are grouped by the
neighbour and the interface of their next hop; each group becomes one mask, shared by the entries of
its positions. A destination without a next hop has no entry.
-/

namespace Multicast
open Std

namespace BierTable

abbrev Groups := ExtTreeMap (NodeId × InterfaceId) (List Nat)

def group (snapshot : Snapshot) (node : NodeId) (groups : Groups) (assigned : NodeId × Nat) :
    Groups :=
  if assigned.1 = node then groups
  else match snapshot.nextHop node assigned.1 with
    | .error _ => groups
    | .ok hop =>
      let way := (hop.node, hop.outInterface)
      groups.insert way (groups[way]?.getD [] ++ [assigned.2])

def groupsAt (snapshot : Snapshot) (positions : BitPositions) (node : NodeId) : Groups :=
  positions.toList.foldl (group snapshot node) ∅

def installGroup (positions : BitPositions) (table : BierTable)
    (entry : (NodeId × InterfaceId) × List Nat) : Except BierError BierTable := do
  let mask ← Bitstring.ofPositions entry.2
  return entry.2.foldl (fun filled position => filled.install
    ⟨position, mask, entry.1.1, positions.positionOf? entry.1.1, entry.1.2⟩) table

def build (snapshot : Snapshot) (positions : BitPositions) (node : NodeId) :
    Except BierError BierTable :=
  (groupsAt snapshot positions node).toList.foldlM (installGroup positions)
    (empty node (positions.positionOf? node))

def buildAll (snapshot : Snapshot) (positions : BitPositions) :
    Except BierError (List BierTable) :=
  (List.range snapshot.nodeCount).mapM (build snapshot positions)

end BierTable
end Multicast
