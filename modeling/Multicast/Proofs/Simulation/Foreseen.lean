import Multicast.Proofs.Bier.Faults
import Multicast.Proofs.Refresh.Whole
import Multicast.Proofs.Simulation.Copying
import Multicast.Proofs.Simulation.Handlers
import Multicast.Proofs.Simulation.Upholding

/-!
Faults that a run is prepared for. On a network of known size, nodes only meet packets of requests of
the run, at nodes of the network, with headers that they can read. Main statements: with route tables,
no packet ever makes a node fail; with bitstrings, a node only fails for a position that is missing.
-/

namespace Multicast
open Std

/-- An error that a run of the requests may end with: a refresh finds no snapshot, or no tree for a
request; or a bitstring lacks the position of a destination, or has one that a node has no way for. -/
inductive SimulationError.Foreseen (forwarding : Forwarding) (requests : List Request)
    (positions : BitPositions) : SimulationError → Prop where
  | snapshot (error : SnapshotError) :
    Foreseen forwarding requests positions (.refresh (.snapshot error))
  | tree (error : TreeError) (routed : forwarding = .routeTable) :
    Foreseen forwarding requests positions (.refresh (.tree error))
  | unassigned (node : NodeId) (bier : forwarding = .bier) (request : Request)
    (listed : request ∈ requests) (member : node ∈ request.destinations)
    (absent : positions.positionOf? node = none) :
    Foreseen forwarding requests positions (.bier (.unassignedNode node))
  | unknown (node : NodeId) (position : Nat) (bier : forwarding = .bier) :
    Foreseen forwarding requests positions (.bier (.unknownBitPosition node position))

def Forwarding.Readable (header : Bytes) : Forwarding → Prop
  | .routeTable => ∃ decoded, PacketHeader.decode header = .ok decoded
  | .bier => ∃ decoded, BierHeader.decode header = .ok decoded

/-- The packet is one of the request, as its source has sent it and nodes have passed it on. -/
structure Packet.Belongs (packet : Packet) (request : Request) (forwarding : Forwarding) : Prop
    extends packet.Addressed request forwarding where
  readable : forwarding.Readable packet.header

def Effect.Inside (effect : Effect) (request : Request) (forwarding : Forwarding)
    (nodeCount : Nat) : Prop :=
  ∀ receiver interface packet, effect = .copy receiver interface packet →
    receiver < nodeCount ∧ packet.Belongs request forwarding

theorem Packet.Belongs.forwarded (packet copy : Packet) (request : Request)
    (forwarding : Forwarding) (belongs : packet.Belongs request forwarding) (header : Bytes)
    (readable : forwarding.Readable header) (forwarded : packet.forwarded? header = some copy) :
    copy.Belongs request forwarding := by
  refine ⟨belongs.toAddressed.forwarded packet copy request forwarding header forwarded, ?_⟩
  obtain ⟨_, rfl⟩ := (packet.forwarded?_eq_some copy header).1 forwarded
  exact readable

namespace RefreshDriver
variable {σ : Type} (driver : RefreshDriver σ) (whole : driver.Whole)

theorem readable_encode (header : BierHeader) : Forwarding.Readable header.encode .bier :=
  ⟨_, header.decode_encode⟩

section
include whole

theorem listener_lt (request : Request) (snapshot : Snapshot)
    (held : driver.snapshot = some snapshot) (tree : Tree)
    (built : Tree.build request snapshot = .ok tree) (hop : Hop) (inside : hop ∈ tree.hops)
    (group : GroupAddress) (listener : NodeId × InterfaceId)
    (hears : listener ∈ driver.listeners group hop.sender hop.outInterface) :
    listener.1 < driver.roles.nodeCount := by
  obtain ⟨size, made⟩ := whole.sized snapshot held
  unfold listeners at hears
  split at hears
  · unfold neighbor? at hears
    rw [held, Option.bind_some, Option.mem_toList] at hears
    obtain ⟨neighbor, behind, hears⟩ := Option.bind_eq_some_iff.1 hears
    obtain ⟨entered, _, rfl⟩ := Option.map_eq_some_iff.1 hears
    have only := (snapshot.interfaces.neighborOn?_eq_some made ..).1 behind hop.receiver
    have leads := (Tree.interfaces_of_mem_hops request snapshot tree built hop inside).1
    have within := (Tree.lt_nodeCount_of_mem_hops request snapshot tree built hop inside).2
    rw [size] at within
    rwa [only.1 leads] at within
  · exact whole.bound _ ((driver.bindings.mem_receivers ..).1 hears)

section
variable (routed : driver.config.forwarding = .routeTable) (request : Request)
  (member : request ∈ driver.requests)
include routed member

theorem exists_emitRouted (within : request.source < driver.roles.nodeCount)
    (hopLimit sequence : Nat) :
    ∃ effects, driver.emitRouted request hopLimit sequence = .ok effects ∧
      ∀ effect ∈ effects, effect.Inside request .routeTable driver.roles.nodeCount := by
  obtain ⟨decision, decides, way⟩ :=
    whole.decides routed request member request.source within ⟨request.source, noInterface⟩
  unfold emitRouted
  rw [decides]
  rcases way with rfl | ⟨snapshot, tree, held, built, rfl⟩
  · exact ⟨_, rfl, by simp [Effect.Inside]⟩
  · rw [tree.decisionAt_source request snapshot built]
    refine ⟨_, rfl, ?_⟩
    rintro _ sent receiver interface packet rfl
    obtain ⟨rfl, hears⟩ := driver.eq_of_transmit _ _ _ _ _ _ sent
    obtain ⟨hop, inside, sender, leaves⟩ := (Tree.mem_outputs_of_build request snapshot tree built
      request.source _).1 ((request.outputsAt_source snapshot tree built _).2 rfl)
    rw [← sender, ← leaves] at hears
    refine ⟨driver.listener_lt whole request snapshot held tree built hop inside _ _ hears,
      ⟨rfl, rfl, fun _ => rfl⟩, _, PacketHeader.decode_encode _⟩

/-- A node always knows what to do with a packet of a request. -/
theorem exists_receiveRouted (node : NodeId) (within : node < driver.roles.nodeCount)
    (packet : Packet) (belongs : packet.Belongs request .routeTable) (isDestination : Bool) :
    ∃ effects, driver.receiveRouted node packet isDestination = .ok effects ∧
      ∀ effect ∈ effects, effect.Inside request .routeTable driver.roles.nodeCount := by
  obtain ⟨decision, decides, way⟩ := whole.decides routed request member node within packet.origin
  obtain ⟨decoded, readable⟩ := belongs.readable
  unfold receiveRouted
  rw [readable, belongs.source, belongs.group rfl, decides]
  dsimp only
  rcases way with rfl | ⟨snapshot, tree, held, built, rfl⟩
  · exact ⟨_, rfl, by simp [Effect.Inside]⟩
  · cases decision : tree.decisionAt node with
    | noRoute => exact ⟨_, rfl, by simp [Effect.Inside]⟩
    | outbound _ => exact ⟨_, rfl, by simp [Effect.Inside]⟩
    | forward interfaces =>
      refine ⟨_, rfl, ?_⟩
      rintro _ happens receiver entered copy rfl
      rcases List.mem_append.1 happens with taken | relayed
      · split at taken <;> simp at taken
      · obtain ⟨interface, leaves, relayed⟩ := List.mem_flatMap.1 relayed
        obtain ⟨hop, inside, rfl, rfl⟩ :=
          (tree.hops_of_decisionAt request snapshot built node interfaces decision).2 interface leaves
        obtain ⟨forwarded, hears⟩ := driver.forwarded?_of_relay _ _ _ _ _ _ relayed
        exact ⟨driver.listener_lt whole request snapshot held tree built hop inside _ _ hears,
          belongs.forwarded packet copy request .routeTable _ ⟨decoded, readable⟩ forwarded⟩

end

section
variable (bier : driver.config.forwarding = .bier) (inverse : driver.positions.Inverse)
  (snapshot : Snapshot) (held : driver.snapshot = some snapshot)
include bier inverse held

theorem emitBier_foreseen (request : Request) (member : request ∈ driver.requests)
    (within : request.source < driver.roles.nodeCount) (hopLimit sequence : Nat)
    (error : SimulationError) (failed : driver.emitBier request hopLimit sequence = .error error) :
    error.Foreseen .bier driver.requests driver.positions := by
  obtain ⟨table, here, routes⟩ := whole.tables bier snapshot held request.source within
  unfold emitBier at failed
  rw [here] at failed
  split at failed
  · rename_i unassigned
    cases failed
    obtain ⟨node, listed, absent, rfl⟩ :=
      driver.positions.bitstringFor_eq_error inverse _ _ unassigned
    exact .unassigned node rfl request member (ExtTreeSet.mem_toList.1 listed) absent
  · dsimp only at failed
    split at failed
    · rename_i unprocessed
      cases failed
      obtain ⟨position, _, rfl⟩ :=
        table.process_eq_error snapshot _ _ routes inverse _ _ unprocessed
      exact .unknown _ position rfl
    · cases failed

omit inverse in
theorem inside_of_emitBier (request : Request) (within : request.source < driver.roles.nodeCount)
    (hopLimit sequence : Nat) (effects : List Effect)
    (emitted : driver.emitBier request hopLimit sequence = .ok effects) (effect : Effect)
    (happens : effect ∈ effects) : effect.Inside request .bier driver.roles.nodeCount := by
  obtain ⟨table, here, routes⟩ := whole.tables bier snapshot held request.source within
  unfold emitBier at emitted
  rw [here] at emitted
  split at emitted
  · cases emitted
  · dsimp only at emitted
    split at emitted
    · cases emitted
    · rename_i decision processed
      cases emitted
      obtain ⟨replica, sent, rfl⟩ := List.mem_map.1 happens
      intro receiver interface packet copied
      obtain ⟨rfl, rfl⟩ := driver.eq_of_sendTo _ _ _ _ _ _ copied
      have near := table.nextHop_lt_of_process snapshot _ _ routes _ decision processed replica sent
      rw [(whole.sized snapshot held).nodeCount] at near
      exact ⟨near, ⟨rfl, rfl, nofun⟩, readable_encode _⟩

theorem receiveBier_foreseen (node : NodeId) (within : node < driver.roles.nodeCount)
    (packet : Packet) (readable : Forwarding.Readable packet.header .bier) (isDestination : Bool)
    (error : SimulationError)
    (failed : driver.receiveBier node packet isDestination = .error error) :
    error.Foreseen .bier driver.requests driver.positions := by
  obtain ⟨table, here, routes⟩ := whole.tables bier snapshot held node within
  obtain ⟨⟨header, rest⟩, decoded⟩ := readable
  unfold receiveBier at failed
  rw [decoded, here] at failed
  dsimp only at failed
  split at failed
  · rename_i unprocessed
    cases failed
    obtain ⟨position, _, rfl⟩ := table.process_eq_error snapshot _ _ routes inverse _ _ unprocessed
    exact .unknown _ position rfl
  · cases failed

omit inverse in
theorem inside_of_receiveBier (node : NodeId) (within : node < driver.roles.nodeCount)
    (packet : Packet) (request : Request) (belongs : packet.Belongs request .bier)
    (isDestination : Bool) (effects : List Effect)
    (received : driver.receiveBier node packet isDestination = .ok effects) (effect : Effect)
    (happens : effect ∈ effects) : effect.Inside request .bier driver.roles.nodeCount := by
  obtain ⟨table, here, routes⟩ := whole.tables bier snapshot held node within
  obtain ⟨header, _, table', decision, _, here', processed, rfl⟩ :=
    driver.receiveBier_eq_ok node packet isDestination effects received
  obtain rfl : table = table' := Option.some.inj (here.symm.trans here')
  rintro receiver entered copy rfl
  rcases List.mem_append.1 happens with taken | relayed
  · split at taken <;> simp at taken
  · obtain ⟨replica, sent, relayed⟩ := List.mem_map.1 relayed
    obtain ⟨forwarded, rfl⟩ := driver.forwarded?_of_relayReplica _ _ _ _ _ _ _ relayed
    have near := table.nextHop_lt_of_process snapshot _ _ routes _ decision processed replica sent
    rw [(whole.sized snapshot held).nodeCount] at near
    exact ⟨near, belongs.forwarded packet copy request .bier _ (readable_encode _) forwarded⟩

end
end

/-- What a run asks of a driver: no two requests share a group, sources are nodes of the network,
refreshes are apart in time, and positions are those of their nodes. -/
structure Planned (driver : RefreshDriver σ) : Prop where
  distinct : driver.requests.Pairwise fun one other => one.id % 2 ^ 32 ≠ other.id % 2 ^ 32
  within : ∀ request ∈ driver.requests, request.source < driver.roles.nodeCount
  interval : 0 < driver.config.interval
  inverse : driver.config.forwarding = .bier → driver.positions.Inverse

def Allows (driver : RefreshDriver σ) (request : Request) :
    Except SimulationError (List Effect) → Prop
  | .error error => error.Foreseen driver.config.forwarding driver.requests driver.positions
  | .ok effects => ∀ effect ∈ effects,
    effect.Inside request driver.config.forwarding driver.roles.nodeCount

section
variable (planned : driver.Planned) (held : driver.snapshot.isSome = true) (request : Request)
  (member : request ∈ driver.requests)
include whole planned held member

theorem allows_emit (hopLimit sequence : Nat) :
    driver.Allows request (driver.emit request hopLimit sequence) := by
  have within := planned.within request member
  obtain ⟨snapshot, held⟩ := Option.isSome_iff_exists.1 held
  unfold emit Allows
  cases mode : driver.config.forwarding with
  | routeTable =>
    obtain ⟨effects, emitted, inside⟩ :=
      driver.exists_emitRouted whole mode request member within hopLimit sequence
    simp only [emitted]
    exact inside
  | bier =>
    cases emitted : driver.emitBier request hopLimit sequence with
    | error error =>
      dsimp only
      exact driver.emitBier_foreseen whole mode (planned.inverse mode) snapshot held request member
        within hopLimit sequence error emitted
    | ok effects =>
      dsimp only
      exact driver.inside_of_emitBier whole mode snapshot held request within hopLimit sequence effects
        emitted

theorem allows_receive (node : NodeId) (within : node < driver.roles.nodeCount) (packet : Packet)
    (belongs : packet.Belongs request driver.config.forwarding) :
    driver.Allows request (driver.receive node packet) := by
  obtain ⟨snapshot, held⟩ := Option.isSome_iff_exists.1 held
  have found := driver.request?_of_mem
    (planned.distinct.imp fun apart same => apart (congrArg (· % 2 ^ 32) same)) request member
  unfold receive Allows
  rw [belongs.numbered, found]
  dsimp only
  cases mode : driver.config.forwarding with
  | routeTable =>
    obtain ⟨effects, received, inside⟩ := driver.exists_receiveRouted whole mode request member node
      within packet (mode ▸ belongs) (request.destinations.contains node)
    simp only [received]
    exact inside
  | bier =>
    rw [mode] at belongs
    cases received : driver.receiveBier node packet (request.destinations.contains node) with
    | error error =>
      dsimp only
      exact driver.receiveBier_foreseen whole mode (planned.inverse mode) snapshot held node within
        packet belongs.readable _ error received
    | ok effects =>
      dsimp only
      exact driver.inside_of_receiveBier whole mode snapshot held node within packet request belongs
        _ effects received

end
end RefreshDriver
end Multicast
