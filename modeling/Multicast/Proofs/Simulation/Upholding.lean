import Multicast.Proofs.Bier.Header
import Multicast.Proofs.Simulation.Crossing

/-!
Requests in force. A driver upholds a request if every node of the request's tree decides as the tree
says and every ground link of the tree is bound. Main statements: a node that has a packet of such a
request copies it over every hop of the tree that leaves the node, and a destination takes it.
-/

namespace Multicast
open Std

/-- Every hop of the tree crosses a ground link, or its interface faces one neighbour only. -/
def Tree.Resolved (tree : Tree) (roles : NodeRoles) (network : Snapshot) : Prop :=
  ∀ hop ∈ tree.hops, roles.crossesGroundLink hop.sender hop.receiver = true ∨
    (network.interfaces.neighborOn? hop.sender hop.outInterface).isSome = true

instance (tree : Tree) (roles : NodeRoles) (network : Snapshot) :
    Decidable (tree.Resolved roles network) :=
  decidable_of_iff (∀ hop ∈ tree.hops.toList,
    roles.crossesGroundLink hop.sender hop.receiver = true ∨
      (network.interfaces.neighborOn? hop.sender hop.outInterface).isSome = true)
    (by simp only [Tree.Resolved, ExtTreeSet.mem_toList])

def InterfaceMap.Numbered (interfaces : InterfaceMap) : Prop :=
  ∀ node neighbor interface, interfaces.interfaceTo? node neighbor = some interface → 1 ≤ interface

instance (interfaces : InterfaceMap) : Decidable interfaces.Numbered :=
  decidable_of_iff (∀ entry ∈ interfaces.leading.toList, 1 ≤ entry.2) <| by
    simp only [InterfaceMap.Numbered, InterfaceMap.interfaceTo?, Prod.forall,
      ExtTreeMap.mem_toList_iff_getElem?_eq_some]

namespace RefreshDriver
variable {σ : Type}

/-- The tree of a request is in force. -/
structure Upholds (driver : RefreshDriver σ) (request : Request) (tree : Tree) : Prop where
  held : driver.snapshot.isSome = true
  decides : ∀ node ∈ tree.nodes, ∀ origin,
    driver.routing.arbitrate node request.source origin (request.group .routeBase) =
      .ok (tree.decisionAt node)
  bound : ∀ hop ∈ tree.hops, driver.roles.crossesGroundLink hop.sender hop.receiver = true →
    tree.binding hop ∈ driver.bindings.bound

section
variable (driver : RefreshDriver σ) (network : Snapshot) (keeps : driver.Keeps network)
  (made : network.interfaces.Made) (separate : driver.requests.Pairwise Request.Separate)
  (request : Request) (member : request ∈ driver.requests) (tree : Tree)
  (built : Tree.build request network = .ok tree) (upholds : driver.Upholds request tree)
  (resolved : tree.Resolved driver.roles network)

include built upholds in
theorem receiveRouted_of_upholds (node : NodeId) (known : node ∈ tree.nodes)
    (away : node ≠ request.source) (hopLimit sequence : Nat) (isDestination : Bool) :
    ∃ interfaces : List InterfaceId, driver.receiveRouted node
        (routedPacket request hopLimit sequence tree.origin.interface) isDestination =
          .ok ((if isDestination then [.deliver] else []) ++ interfaces.flatMap
            (driver.relay node (routedPacket request hopLimit sequence tree.origin.interface))) ∧
      ∀ hop ∈ tree.hops, hop.sender = node → hop.outInterface ≠ noInterface →
        hop.outInterface ∈ interfaces := by
  obtain ⟨interfaces, forwards, _, hops⟩ :=
    Tree.decisionAt_inside request network tree built node away known
  have decided := upholds.decides node known ⟨request.source, tree.origin.interface⟩
  rw [forwards] at decided
  refine ⟨interfaces, ?_, fun hop inside leaves some => (hops _).2 ⟨some, hop, inside, leaves, rfl⟩⟩
  have read : PacketHeader.decode (routedPacket request hopLimit sequence tree.origin.interface).header =
      .ok (⟨UInt64.ofNat request.id, UInt64.ofNat sequence⟩, []) := PacketHeader.decode_encode _
  have arbitrated : driver.routing.arbitrate node
      (routedPacket request hopLimit sequence tree.origin.interface).source
      (routedPacket request hopLimit sequence tree.origin.interface).origin
      (routedPacket request hopLimit sequence tree.origin.interface).group =
        .ok (.forward interfaces) := decided
  unfold receiveRouted
  rw [read, arbitrated]

include built upholds in
theorem deliver_mem_receiveRouted (node : NodeId) (known : node ∈ tree.nodes)
    (away : node ≠ request.source) (hopLimit sequence : Nat) :
    ∃ effects, driver.receiveRouted node
        (routedPacket request hopLimit sequence tree.origin.interface) true = .ok effects ∧
      .deliver ∈ effects := by
  obtain ⟨interfaces, received, _⟩ := driver.receiveRouted_of_upholds network request tree built upholds
    node known away hopLimit sequence true
  exact ⟨_, received, List.mem_append_left _ List.mem_cons_self⟩

variable (hop : Hop) (inside : hop ∈ tree.hops)
include keeps made separate member built upholds resolved inside

theorem copy_mem_transmit (packet : Packet) (group : packet.group = request.group .routeBase) :
    .copy hop.receiver hop.inInterface packet ∈
      driver.transmit hop.sender hop.outInterface packet := by
  have hears := driver.listener_of_mem_hops network keeps made separate request member tree built hop
    inside (upholds.bound hop inside) (resolved hop inside) upholds.held
  rw [← group] at hears
  unfold transmit
  split
  · rename_i empty
    rw [empty] at hears
    cases hears
  · exact List.mem_map.2 ⟨_, hears, rfl⟩

theorem copy_mem_emitRouted (leaves : hop.sender = request.source) (hopLimit sequence : Nat) :
    ∃ effects, driver.emitRouted request hopLimit sequence = .ok effects ∧
      .copy hop.receiver hop.inInterface
        (routedPacket request hopLimit sequence tree.origin.interface) ∈ effects := by
  have known := (Tree.mem_nodes request network tree built request.source).2 (.inl rfl)
  have decided := upholds.decides request.source known ⟨request.source, noInterface⟩
  rw [Tree.decisionAt_source request network tree built] at decided
  have out : hop.outInterface = tree.origin.interface :=
    (request.outputsAt_source network tree built _).1
      ((Tree.mem_outputs_of_build request network tree built _ _).2 ⟨hop, inside, leaves, rfl⟩)
  have sent := driver.copy_mem_transmit network keeps made separate request member tree built upholds
    resolved hop inside (routedPacket request hopLimit sequence tree.origin.interface) rfl
  rw [leaves, out] at sent
  refine ⟨_, ?_, sent⟩
  unfold emitRouted
  rw [decided]

theorem copy_mem_receiveRouted (numbered : network.interfaces.Numbered)
    (away : hop.sender ≠ request.source) (hopLimit sequence : Nat) (left : 1 < hopLimit)
    (isDestination : Bool) :
    ∃ effects, driver.receiveRouted hop.sender
        (routedPacket request hopLimit sequence tree.origin.interface) isDestination = .ok effects ∧
      .copy hop.receiver hop.inInterface
        (routedPacket request (hopLimit - 1) sequence tree.origin.interface) ∈ effects := by
  have known := (Tree.mem_nodes request network tree built hop.sender).2 (.inr ⟨hop, inside, .inl rfl⟩)
  obtain ⟨interfaces, received, leaving⟩ := driver.receiveRouted_of_upholds network request tree built
    upholds hop.sender known away hopLimit sequence isDestination
  have some : hop.outInterface ≠ noInterface := Nat.ne_of_gt
    (numbered _ _ _ (Tree.interfaces_of_mem_hops request network tree built hop inside).1)
  refine ⟨_, received, List.mem_append_right _
    (List.mem_flatMap.2 ⟨_, leaving hop inside rfl some, ?_⟩)⟩
  have spent : ¬(routedPacket request hopLimit sequence tree.origin.interface).hopLimit ≤ 1 :=
    Nat.not_le_of_lt left
  unfold relay Packet.forwarded?
  rw [if_neg spent]
  exact driver.copy_mem_transmit network keeps made separate request member tree built upholds resolved
    hop inside (routedPacket request (hopLimit - 1) sequence tree.origin.interface) rfl

end

end RefreshDriver
end Multicast
