import Multicast.Identifier

/-!
Interfaces and the neighbours they face. A point-to-point interface faces one neighbour and a shared
channel faces many; the neighbour on an interface is defined for the former only. The table keeps
both directions, so neither look-up searches.
-/

namespace Multicast
open Std

structure InterfaceMap where
  leading : ExtTreeMap (NodeId × NodeId) InterfaceId
  facing : ExtTreeMap (NodeId × InterfaceId) (List NodeId)
deriving Inhabited

namespace InterfaceMap

def empty : InterfaceMap := ⟨∅, ∅⟩

def withdraw (facing : ExtTreeMap (NodeId × InterfaceId) (List NodeId)) (node : NodeId)
    (interface : InterfaceId) (neighbor : NodeId) :
    ExtTreeMap (NodeId × InterfaceId) (List NodeId) :=
  facing.modify (node, interface) fun neighbors => neighbors.filter (· ≠ neighbor)

def present (facing : ExtTreeMap (NodeId × InterfaceId) (List NodeId)) (node : NodeId)
    (interface : InterfaceId) (neighbor : NodeId) :
    ExtTreeMap (NodeId × InterfaceId) (List NodeId) :=
  let neighbors := facing[(node, interface)]?.getD []
  facing.insert (node, interface)
    (if neighbor ∈ neighbors then neighbors else neighbors ++ [neighbor])

/-- Record that an interface of the node leads to the neighbour, instead of the one that did. -/
def insert (interfaces : InterfaceMap) (node neighbor : NodeId) (interface : InterfaceId) :
    InterfaceMap :=
  let withdrawn := match interfaces.leading[(node, neighbor)]? with
    | none => interfaces.facing
    | some previous => withdraw interfaces.facing node previous neighbor
  ⟨interfaces.leading.insert (node, neighbor) interface,
    present withdrawn node interface neighbor⟩

def interfaceTo? (interfaces : InterfaceMap) (node neighbor : NodeId) : Option InterfaceId :=
  interfaces.leading[(node, neighbor)]?

/-- The neighbour behind an interface, if there is exactly one. -/
def neighborOn? (interfaces : InterfaceMap) (node : NodeId) (interface : InterfaceId) :
    Option NodeId :=
  match interfaces.facing[(node, interface)]? with
  | some [neighbor] => some neighbor
  | _ => none

end InterfaceMap
end Multicast
