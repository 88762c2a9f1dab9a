import Multicast.Simulation.Forwarding
import Multicast.Proofs.Bier.Build
import Multicast.Proofs.Bier.Header
import Multicast.Proofs.Event.Copies

/-!
Effects on copies. Main statements: a source that sends a packet emits copies that share the
positions of the packet's destinations, and a node that receives a copy sends copies that share its
positions, without the node's own. The packet is only delivered where that position was in the copy.
-/

namespace Multicast

def Effect.copy? : Effect → Option Copy
  | .copy _ _ packet => packet.copy?
  | _ => none

def Effect.Carries (effect : Effect) (copy : Copy) : Prop :=
  effect = .expired ∨ effect = .unresolved ∨
    ∃ receiver interface packet, effect = .copy receiver interface packet ∧
      packet.copy? = some copy

def Effect.Readable (effect : Effect) : Prop :=
  ∀ receiver interface packet, effect = .copy receiver interface packet →
    ∃ copy, packet.copy? = some copy

namespace Effect

theorem Carries.ne_deliver (effect : Effect) (copy : Copy) (carries : effect.Carries copy) :
    effect ≠ .deliver := by
  rcases carries with rfl | rfl | ⟨_, _, _, rfl, _⟩
  · simp
  · simp
  · simp

theorem Carries.readable (effect : Effect) (copy : Copy) (carries : effect.Carries copy) :
    effect.Readable := by
  intro receiver interface packet same
  rcases carries with rfl | rfl | ⟨_, _, _, rfl, carried⟩
  · cases same
  · cases same
  · cases same
    exact ⟨copy, carried⟩

theorem Carries.eq_of_copy? (effect : Effect) (copy other : Copy) (carries : effect.Carries copy)
    (found : effect.copy? = some other) : other = copy := by
  rcases carries with rfl | rfl | ⟨_, _, _, rfl, carried⟩
  · cases found
  · cases found
  · exact Option.some.inj (found.symm.trans carried)

end Effect

/-- Copies of one packet that share the positions of a copy. -/
structure Copy.Split (copies : List Copy) (whole : Copy) : Prop where
  request : ∀ copy ∈ copies, copy.request = whole.request
  sequence : ∀ copy ∈ copies, copy.sequence = whole.sequence
  inhabited : ∀ copy ∈ copies, copy.bitstring.isZero = false
  within : ∀ copy ∈ copies, ∀ position, copy.bitstring.test position = true →
    whole.bitstring.test position = true
  disjoint : copies.Pairwise fun one other => one.bitstring.Disjoint other.bitstring

section
variable (replicas : List Replica) (whole : Copy) (effectOf : Replica → Effect)
  (carries : ∀ replica, (effectOf replica).Carries { whole with bitstring := replica.bitstring })
include carries

theorem Copy.exists_replica (copy : Copy)
    (member : copy ∈ (replicas.map effectOf).filterMap Effect.copy?) :
    ∃ replica ∈ replicas, copy = { whole with bitstring := replica.bitstring } := by
  obtain ⟨effect, listed, found⟩ := List.mem_filterMap.1 member
  obtain ⟨replica, sent, rfl⟩ := List.mem_map.1 listed
  exact ⟨replica, sent, (carries replica).eq_of_copy? _ _ _ found⟩

theorem Copy.split_of_share (shared : Replica.Share replicas whole.bitstring) :
    Copy.Split ((replicas.map effectOf).filterMap Effect.copy?) whole := by
  have origin := Copy.exists_replica replicas whole effectOf carries
  refine ⟨?_, ?_, ?_, ?_, ?_⟩
  · intro copy member
    obtain ⟨replica, _, rfl⟩ := origin copy member
    rfl
  · intro copy member
    obtain ⟨replica, _, rfl⟩ := origin copy member
    rfl
  · intro copy member
    obtain ⟨replica, sent, rfl⟩ := origin copy member
    exact shared.inhabited replica sent
  · intro copy member
    obtain ⟨replica, sent, rfl⟩ := origin copy member
    exact shared.within replica sent
  · rw [List.pairwise_filterMap, List.pairwise_map]
    apply shared.disjoint.imp
    intro one other disjoint copy found copy' found'
    rw [(carries one).eq_of_copy? _ _ _ found, (carries other).eq_of_copy? _ _ _ found']
    exact disjoint

end

namespace RefreshDriver
variable {σ : Type}

theorem carries_sendTo (driver : RefreshDriver σ) (node neighbor : NodeId) (packet : Packet)
    (copy : Copy) (carried : packet.copy? = some copy) :
    (driver.sendTo node neighbor packet).Carries copy := by
  unfold sendTo
  split
  · exact .inr (.inl rfl)
  · exact .inr (.inr ⟨_, _, _, rfl, carried⟩)

theorem copy?_of_encode (packet : Packet) (header : BierHeader) :
    { packet with header := header.encode }.copy? =
      some ⟨packet.request, header.sequence, header.bitstring⟩ := by
  unfold Packet.copy?
  rw [BierHeader.decode_encode]

theorem carries_relayReplica (driver : RefreshDriver σ) (node : NodeId) (packet : Packet)
    (header : BierHeader) (replica : Replica) :
    (driver.relayReplica node packet header replica).Carries
      ⟨packet.request, header.sequence, replica.bitstring⟩ := by
  unfold relayReplica
  split
  · exact .inl rfl
  · rename_i copy forwarded
    unfold Packet.forwarded? at forwarded
    split at forwarded
    · cases forwarded
    · cases forwarded
      exact driver.carries_sendTo _ _ _ _
        (copy?_of_encode { packet with hopLimit := packet.hopLimit - 1 } _)

theorem split_of_emitBier (driver : RefreshDriver σ) (request : Request) (hopLimit sequence : Nat)
    (effects : List Effect) (emitted : driver.emitBier request hopLimit sequence = .ok effects) :
    (∀ effect ∈ effects, effect ≠ .deliver ∧ effect.Readable) ∧
      ∃ bitstring, driver.positions.bitstringFor request.destinations.toList = .ok bitstring ∧
        Copy.Split (effects.filterMap Effect.copy?)
          ⟨request.id, UInt64.ofNat sequence, bitstring⟩ := by
  unfold emitBier at emitted
  split at emitted
  · cases emitted
  · rename_i bitstring addressed
    split at emitted
    · cases emitted
    · rename_i table _
      split at emitted
      · cases emitted
      · rename_i decision processed
        cases emitted
        have shared := (table.share_of_process bitstring decision processed).1
        have carries (replica : Replica) := driver.carries_sendTo request.source replica.nextHop _ _
          (copy?_of_encode (bierPacket request hopLimit
            ⟨UInt64.ofNat request.id, UInt64.ofNat sequence, bitstring⟩ decision.replicas)
            ⟨UInt64.ofNat request.id, UInt64.ofNat sequence, replica.bitstring⟩)
        refine ⟨?_, bitstring, addressed, ?_⟩
        · intro effect member
          obtain ⟨replica, _, rfl⟩ := List.mem_map.1 member
          exact ⟨(carries replica).ne_deliver _ _, (carries replica).readable _ _⟩
        · exact Copy.split_of_share decision.replicas ⟨request.id, UInt64.ofNat sequence, bitstring⟩
            _ carries shared

theorem receiveBier_eq_ok (driver : RefreshDriver σ) (node : NodeId) (packet : Packet)
    (isDestination : Bool) (effects : List Effect)
    (received : driver.receiveBier node packet isDestination = .ok effects) :
    ∃ header rest table decision, BierHeader.decode packet.header = .ok (header, rest) ∧
      driver.bierTable? node = some table ∧ table.process header.bitstring = .ok decision ∧
      effects = (if decision.deliverLocally && isDestination then [.deliver] else []) ++
        decision.replicas.map (driver.relayReplica node packet header) := by
  unfold receiveBier at received
  split at received
  · cases received
  · rename_i header rest decoded
    split at received
    · cases received
    · rename_i table located
      split at received
      · cases received
      · rename_i decision processed
        exact ⟨header, rest, table, decision, decoded, located, processed,
          (Except.ok.inj received).symm⟩

/-- A node that receives a copy sends its positions on, without its own. It takes the packet at most
once, and only at its own position. -/
theorem split_of_receiveBier (driver : RefreshDriver σ) (node : NodeId) (packet : Packet)
    (isDestination : Bool) (effects : List Effect)
    (placed : ∀ table, driver.bierTable? node = some table →
      table.localPosition = driver.positions.positionOf? node)
    (received : driver.receiveBier node packet isDestination = .ok effects) :
    ∃ copy, packet.copy? = some copy ∧ Copy.Split (effects.filterMap Effect.copy?) copy ∧
      (∀ effect ∈ effects, effect.Readable) ∧
      (∀ position, driver.positions.positionOf? node = some position →
        ∀ part ∈ effects.filterMap Effect.copy?, part.bitstring.test position = false) ∧
      (effects.filter (· = .deliver) = [] ∨
        effects.filter (· = .deliver) = [.deliver] ∧ isDestination = true ∧
          ∃ position, driver.positions.positionOf? node = some position ∧
            copy.bitstring.test position = true) := by
  obtain ⟨header, rest, table, decision, decoded, located, processed, rfl⟩ :=
    driver.receiveBier_eq_ok node packet isDestination effects received
  obtain ⟨shared, own, others⟩ := table.share_of_process _ decision processed
  rw [placed table located] at own others
  let whole : Copy := ⟨packet.request, header.sequence, header.bitstring⟩
  have found : packet.copy? = some whole := by
    unfold Packet.copy?
    rw [decoded]
  have carries (replica : Replica) := driver.carries_relayReplica node packet header replica
  have split := Copy.split_of_share decision.replicas whole _ carries shared
  have outside (position : Nat) (here : driver.positions.positionOf? node = some position)
      (part : Copy) (member : part ∈ (decision.replicas.map
        (driver.relayReplica node packet header)).filterMap Effect.copy?) :
      part.bitstring.test position = false := by
    obtain ⟨replica, sent, rfl⟩ := Copy.exists_replica _ whole _ carries part member
    exact others position here replica sent
  have relayed : (decision.replicas.map (driver.relayReplica node packet header)).filter
      (· = .deliver) = [] := by
    rw [List.filter_eq_nil_iff]
    intro effect member
    obtain ⟨replica, _, rfl⟩ := List.mem_map.1 member
    simpa using (carries replica).ne_deliver _ _
  have readable (effect : Effect)
      (member : effect ∈ decision.replicas.map (driver.relayReplica node packet header)) :
      effect.Readable := by
    obtain ⟨replica, _, rfl⟩ := List.mem_map.1 member
    exact (carries replica).readable _ _
  cases kept : decision.deliverLocally && isDestination with
  | false => exact ⟨whole, found, split, readable, outside, .inl relayed⟩
  | true =>
    rw [Bool.and_eq_true] at kept
    refine ⟨whole, found, split, ?_, outside, .inr ⟨?_, kept.2, own kept.1⟩⟩
    · refine List.forall_mem_cons.2 ⟨?_, readable⟩
      rintro _ _ _ ⟨⟩
    · exact congrArg (List.cons .deliver) relayed

end RefreshDriver
end Multicast
