import Multicast.Proofs.Simulation.Crossing
import Multicast.Proofs.Simulation.Effects

/-!
Copies. Main statements: what a source sends is addressed as a packet of its request, and whatever a
node sends on is the packet it has received, with a header of the node's own and with less of its hop
limit left.
-/

namespace Multicast
open Std

namespace Packet

theorem forwarded?_eq_some (packet copy : Packet) (header : Bytes) :
    packet.forwarded? header = some copy ↔
      1 < packet.hopLimit ∧ copy = { packet with hopLimit := packet.hopLimit - 1, header } := by
  unfold forwarded?
  split
  · simp only [reduceCtorEq, false_iff, not_and]
    omega
  · rw [Option.some.injEq, eq_comm, and_iff_right]
    omega

structure Addressed (packet : Packet) (request : Request) (forwarding : Forwarding) : Prop where
  numbered : packet.request = request.id
  source : packet.source = request.source
  group : forwarding = .routeTable → packet.group = request.group .routeBase

theorem Addressed.forwarded (packet copy : Packet) (request : Request) (forwarding : Forwarding)
    (addressed : packet.Addressed request forwarding) (header : Bytes)
    (forwarded : packet.forwarded? header = some copy) : copy.Addressed request forwarding := by
  obtain ⟨_, rfl⟩ := (packet.forwarded?_eq_some copy header).1 forwarded
  exact ⟨addressed.numbered, addressed.source, addressed.group⟩

end Packet

namespace RefreshDriver
variable {σ : Type}

theorem forwarded?_of_relay (driver : RefreshDriver σ) (node receiver : NodeId) (packet copy : Packet)
    (interface entered : InterfaceId)
    (sent : .copy receiver entered copy ∈ driver.relay node packet interface) :
    packet.forwarded? packet.header = some copy ∧
      (receiver, entered) ∈ driver.listeners copy.group node interface := by
  unfold relay at sent
  split at sent
  · simp at sent
  · rename_i forwarded
    obtain ⟨rfl, hears⟩ := driver.eq_of_transmit _ _ _ _ _ _ sent
    exact ⟨forwarded, hears⟩

theorem eq_of_sendTo (driver : RefreshDriver σ) (node neighbor receiver : NodeId)
    (packet copy : Packet) (entered : InterfaceId)
    (sent : driver.sendTo node neighbor packet = .copy receiver entered copy) :
    copy = packet ∧ receiver = neighbor := by
  unfold sendTo at sent
  split at sent
  · cases sent
  · cases sent
    exact ⟨rfl, rfl⟩

theorem forwarded?_of_relayReplica (driver : RefreshDriver σ) (node receiver : NodeId)
    (packet copy : Packet) (header : BierHeader) (replica : Replica) (entered : InterfaceId)
    (sent : driver.relayReplica node packet header replica = .copy receiver entered copy) :
    packet.forwarded? (header.withBitstring replica.bitstring).encode = some copy ∧
      receiver = replica.nextHop := by
  unfold relayReplica at sent
  split at sent
  · cases sent
  · rename_i forwarded
    obtain ⟨rfl, rfl⟩ := driver.eq_of_sendTo _ _ _ _ _ _ sent
    exact ⟨forwarded, rfl⟩

theorem exists_forwarded?_of_receive (driver : RefreshDriver σ) (node receiver : NodeId)
    (packet copy : Packet) (entered : InterfaceId) (effects : List Effect)
    (received : driver.receive node packet = .ok effects)
    (sent : .copy receiver entered copy ∈ effects) :
    ∃ header, packet.forwarded? header = some copy := by
  unfold receive at received
  split at received
  · cases received
  · dsimp only at received
    split at received
    · unfold receiveRouted at received
      split at received
      · cases received
      · split at received
        · cases received
        · cases received
          rcases List.mem_append.1 sent with taken | relayed
          · split at taken <;> simp at taken
          · obtain ⟨interface, _, relayed⟩ := List.mem_flatMap.1 relayed
            exact ⟨_, (driver.forwarded?_of_relay _ _ _ _ _ _ relayed).1⟩
        · cases received
          simp at sent
    · obtain ⟨header, _, _, decision, _, _, _, rfl⟩ := driver.receiveBier_eq_ok _ _ _ _ received
      rcases List.mem_append.1 sent with taken | relayed
      · split at taken <;> simp at taken
      · obtain ⟨replica, _, relayed⟩ := List.mem_map.1 relayed
        exact ⟨_, (driver.forwarded?_of_relayReplica _ _ _ _ _ _ _ relayed).1⟩

theorem exists_packet_of_emit (driver : RefreshDriver σ) (request : Request) (hopLimit sequence : Nat)
    (effects : List Effect) (emitted : driver.emit request hopLimit sequence = .ok effects)
    (receiver : NodeId) (entered : InterfaceId) (copy : Packet)
    (sent : .copy receiver entered copy ∈ effects) :
    (∃ interface, copy = routedPacket request hopLimit sequence interface) ∨
      driver.config.forwarding = .bier ∧ ∃ header replicas encoded,
        copy = { bierPacket request hopLimit header replicas with header := encoded } := by
  unfold emit at emitted
  cases mode : driver.config.forwarding with
  | routeTable =>
    rw [mode] at emitted
    dsimp only at emitted
    unfold emitRouted at emitted
    split at emitted
    · cases emitted
    · cases emitted
      obtain ⟨same, _⟩ := driver.eq_of_transmit _ _ _ _ _ _ sent
      exact .inl ⟨_, same⟩
    · cases emitted
      simp at sent
  | bier =>
    rw [mode] at emitted
    dsimp only at emitted
    unfold emitBier at emitted
    split at emitted
    · cases emitted
    · split at emitted
      · cases emitted
      · dsimp only at emitted
        split at emitted
        · cases emitted
        · cases emitted
          obtain ⟨replica, _, copied⟩ := List.mem_map.1 sent
          obtain ⟨same, _⟩ := driver.eq_of_sendTo _ _ _ _ _ _ copied
          exact .inr ⟨rfl, _, _, _, same⟩

section
variable (driver : RefreshDriver σ) (request : Request) (hopLimit sequence : Nat)
  (effects : List Effect) (emitted : driver.emit request hopLimit sequence = .ok effects)
  (receiver : NodeId) (entered : InterfaceId) (copy : Packet)
  (sent : .copy receiver entered copy ∈ effects)
include emitted sent

theorem addressed_of_emit : copy.Addressed request driver.config.forwarding := by
  cases driver.exists_packet_of_emit request hopLimit sequence effects emitted receiver entered copy
    sent with
  | inl routed =>
    obtain ⟨interface, rfl⟩ := routed
    exact ⟨rfl, rfl, fun _ => rfl⟩
  | inr replicated =>
    obtain ⟨bier, header, replicas, encoded, rfl⟩ := replicated
    rw [bier]
    exact ⟨rfl, rfl, nofun⟩

theorem hopLimit_of_emit : copy.hopLimit = hopLimit := by
  cases driver.exists_packet_of_emit request hopLimit sequence effects emitted receiver entered copy
    sent with
  | inl routed =>
    obtain ⟨interface, rfl⟩ := routed
    rfl
  | inr replicated =>
    obtain ⟨_, header, replicas, encoded, rfl⟩ := replicated
    rfl

end

end RefreshDriver
end Multicast
