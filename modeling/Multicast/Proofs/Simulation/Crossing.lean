import Multicast.Simulation.Forwarding
import Multicast.Proofs.Refresh.Network

/-!
Crossings. What a node does with a packet of a request while the driver keeps to one network. Main
statements: copies only go over hops of the request's tree and to different nodes; and where nothing
of the tree is missing, a copy goes over every hop that leaves the node.
-/

namespace Multicast
open Std

namespace Request

theorem eq_of_group (requests : List Request) (separate : requests.Pairwise Separate)
    (one other : Request) (member : one ∈ requests) (member' : other ∈ requests)
    (same : one.group .routeBase = other.group .routeBase) : one = other := by
  by_contra different
  exact separate.forall member member' different same

end Request

namespace Tree

theorem decisionAt_outside (tree : Tree) (node : NodeId) (outside : node ∉ tree.nodes) :
    tree.decisionAt node = .noRoute := by
  unfold decisionAt
  rw [ExtTreeMap.getElem?_eq_none outside]

section
variable (request : Request) (snapshot : Snapshot) (tree : Tree)
  (built : build request snapshot = .ok tree)
include built

theorem decisionAt_source : tree.decisionAt request.source = .outbound tree.origin.interface := by
  have source := request.source_of_build snapshot tree built
  have inside := (mem_nodes request snapshot tree built request.source).2 (.inl rfl)
  rw [ExtTreeMap.mem_iff_isSome_getElem?] at inside
  unfold decisionAt
  cases found : tree.nodes[request.source]? with
  | none => simp [found] at inside
  | some place => simp [source]

theorem decisionAt_inside (node : NodeId) (away : node ≠ request.source)
    (inside : node ∈ tree.nodes) :
    ∃ interfaces, tree.decisionAt node = .forward interfaces ∧ interfaces.Nodup ∧
      ∀ interface, interface ∈ interfaces ↔ interface ≠ noInterface ∧
        ∃ hop ∈ tree.hops, hop.sender = node ∧ hop.outInterface = interface := by
  have source := request.source_of_build snapshot tree built
  have outputs := mem_outputs_of_build request snapshot tree built node
  unfold decisionAt
  unfold outputsAt at outputs
  rw [ExtTreeMap.mem_iff_isSome_getElem?] at inside
  cases found : tree.nodes[node]? with
  | none => simp [found] at inside
  | some place =>
    rw [found, Option.getD_some] at outputs
    dsimp only
    rw [source, if_neg (Ne.symm away)]
    refine ⟨_, rfl, List.Nodup.filter _ ?_, fun interface => ?_⟩
    · exact ExtTreeSet.distinct_toList.imp fun different same => different (by rw [same, compare_self])
    · rw [List.mem_filter, ExtTreeSet.mem_toList, outputs, decide_eq_true_eq, and_comm]

theorem hops_of_decisionAt (node : NodeId) (interfaces : List InterfaceId)
    (decision : tree.decisionAt node = .forward interfaces) :
    interfaces.Nodup ∧ ∀ interface ∈ interfaces,
      ∃ hop ∈ tree.hops, hop.sender = node ∧ hop.outInterface = interface := by
  have away : node ≠ request.source := by
    rintro rfl
    rw [decisionAt_source request snapshot tree built] at decision
    cases decision
  have known : node ∈ tree.nodes := by
    by_contra outside
    rw [tree.decisionAt_outside node outside] at decision
    cases decision
  obtain ⟨_, forwards, distinct, hops⟩ :=
    decisionAt_inside request snapshot tree built node away known
  cases decision.symm.trans forwards
  exact ⟨distinct, fun interface listed => ((hops interface).1 listed).2⟩

end

end Tree

def Effect.receiver? : Effect → Option NodeId
  | .copy receiver _ _ => some receiver
  | _ => none

/-- The effects send copies of a packet over hops of a tree that leave a node, to different nodes. -/
structure Tree.Spreads (tree : Tree) (node : NodeId) (packet : Packet) (effects : List Effect) :
    Prop where
  crosses (receiver : NodeId) (interface : InterfaceId) (copy : Packet)
    (sent : Effect.copy receiver interface copy ∈ effects) :
    copy = packet ∧ ∃ outInterface, ⟨node, outInterface, receiver, interface⟩ ∈ tree.hops
  apart : (effects.filterMap Effect.receiver?).Nodup

theorem Tree.spreads_flatMap (request : Request) (snapshot : Snapshot) (tree : Tree)
    (built : build request snapshot = .ok tree) (node : NodeId) (packet : Packet)
    (interfaces : List InterfaceId) (distinct : interfaces.Nodup)
    (relayed : InterfaceId → List Effect)
    (crosses : ∀ interface ∈ interfaces, ∀ receiver entered copy,
      Effect.copy receiver entered copy ∈ relayed interface →
        copy = packet ∧ ⟨node, interface, receiver, entered⟩ ∈ tree.hops)
    (apart : ∀ interface ∈ interfaces, ((relayed interface).filterMap Effect.receiver?).Nodup) :
    tree.Spreads node packet (interfaces.flatMap relayed) := by
  constructor
  case crosses =>
    intro receiver entered copy sent
    obtain ⟨interface, listed, sent⟩ := List.mem_flatMap.1 sent
    obtain ⟨same, crossed⟩ := crosses interface listed receiver entered copy sent
    exact ⟨same, interface, crossed⟩
  case apart =>
    have leaves (interface : InterfaceId) (listed : interface ∈ interfaces) (receiver : NodeId)
        (sent : receiver ∈ (relayed interface).filterMap Effect.receiver?) :
        snapshot.interfaces.interfaceTo? node receiver = some interface := by
      obtain ⟨effect, sent, found⟩ := List.mem_filterMap.1 sent
      cases effect with
      | copy receiver entered copy =>
        cases found
        have crossed := (crosses interface listed _ _ _ sent).2
        exact (interfaces_of_mem_hops request snapshot tree built _ crossed).1
      | _ => cases found
    rw [List.filterMap_flatMap, List.nodup_flatMap]
    refine ⟨apart, distinct.imp_of_mem fun {one other} first second different => ?_⟩
    intro receiver sent sent'
    have same := (leaves one first receiver sent).symm.trans (leaves other second receiver sent')
    exact different (Option.some.inj same)

namespace RefreshDriver
variable {σ : Type}

theorem eq_of_transmit (driver : RefreshDriver σ) (node receiver : NodeId)
    (interface entered : InterfaceId) (packet copy : Packet)
    (sent : .copy receiver entered copy ∈ driver.transmit node interface packet) :
    copy = packet ∧ (receiver, entered) ∈ driver.listeners packet.group node interface := by
  unfold transmit at sent
  split at sent
  · simp at sent
  · obtain ⟨listener, hears, same⟩ := List.mem_map.1 sent
    cases same
    exact ⟨rfl, hears⟩

theorem ne_deliver_of_transmit (driver : RefreshDriver σ) (node : NodeId) (interface : InterfaceId)
    (packet : Packet) (effect : Effect) (sent : effect ∈ driver.transmit node interface packet) :
    effect ≠ .deliver := by
  rintro rfl
  unfold transmit at sent
  split at sent
  · simp at sent
  · simp at sent

theorem ne_deliver_of_relay (driver : RefreshDriver σ) (node : NodeId) (packet : Packet)
    (interface : InterfaceId) (effect : Effect) (sent : effect ∈ driver.relay node packet interface) :
    effect ≠ .deliver := by
  rintro rfl
  unfold relay at sent
  split at sent
  · simp at sent
  · exact driver.ne_deliver_of_transmit _ _ _ _ sent rfl

section
variable (driver : RefreshDriver σ) (network : Snapshot) (keeps : driver.Keeps network)
  (made : network.interfaces.Made) (separate : driver.requests.Pairwise Request.Separate)
  (request : Request) (member : request ∈ driver.requests) (tree : Tree)
  (built : Tree.build request network = .ok tree)
include keeps separate member built

theorem mem_hops_of_bound (hop : Hop) (bound : tree.binding hop ∈ driver.bindings.bound) :
    hop ∈ tree.hops ∧ driver.roles.crossesGroundLink hop.sender hop.receiver = true := by
  obtain ⟨other, listed, tree', built', needed⟩ := keeps.bound _ bound
  obtain ⟨hop', inside, crosses, same⟩ := (Tree.mem_bindings ..).1 needed
  obtain ⟨sender, outInterface, receiver, inInterface⟩ := hop
  obtain ⟨sender', outInterface', receiver', inInterface'⟩ := hop'
  obtain ⟨group, rfl, rfl, rfl, rfl⟩ := LinkBinding.mk.inj same
  rw [other.group_of_build network tree' built', request.group_of_build network tree built] at group
  obtain rfl := Request.eq_of_group _ separate other request listed member group
  cases built.symm.trans built'
  exact ⟨inside, crosses⟩

include made

/-- Frames that a node sends on an interface of the tree are heard at ends of hops of the tree. -/
theorem mem_hops_of_listener (hop : Hop) (inside : hop ∈ tree.hops) (listener : NodeId × InterfaceId)
    (hears : listener ∈
      driver.listeners (request.group .routeBase) hop.sender hop.outInterface) :
    ⟨hop.sender, hop.outInterface, listener.1, listener.2⟩ ∈ tree.hops := by
  have links := Tree.interfaces_of_mem_hops request network tree built hop inside
  unfold listeners at hears
  split at hears
  · rw [Option.mem_toList] at hears
    obtain ⟨snapshot, held, found⟩ := Option.bind_eq_some_iff.1 hears
    obtain ⟨neighbor, alone, found⟩ := Option.bind_eq_some_iff.1 found
    obtain ⟨entered, back, rfl⟩ := Option.map_eq_some_iff.1 found
    rw [keeps.interfaces snapshot held] at alone back
    obtain rfl := ((network.interfaces.neighborOn?_eq_some made _ _ _).1 alone _).1 links.1
    rw [links.2, Option.some.injEq] at back
    exact back ▸ inside
  · rw [LinkBindings.mem_receivers, ← request.group_of_build network tree built] at hears
    exact (driver.mem_hops_of_bound network keeps separate request member tree built
      ⟨hop.sender, hop.outInterface, listener.1, listener.2⟩ hears).1

theorem listener_of_mem_hops (hop : Hop) (inside : hop ∈ tree.hops)
    (bound : driver.roles.crossesGroundLink hop.sender hop.receiver = true →
      tree.binding hop ∈ driver.bindings.bound)
    (resolved : driver.roles.crossesGroundLink hop.sender hop.receiver = true ∨
      (network.interfaces.neighborOn? hop.sender hop.outInterface).isSome = true)
    (held : driver.snapshot.isSome = true) :
    (hop.receiver, hop.inInterface) ∈
      driver.listeners (request.group .routeBase) hop.sender hop.outInterface := by
  have links := Tree.interfaces_of_mem_hops request network tree built hop inside
  have group := request.group_of_build network tree built
  obtain ⟨snapshot, held⟩ := Option.isSome_iff_exists.1 held
  by_cases ground : driver.roles.crossesGroundLink hop.sender hop.receiver = true
  · have listed : (hop.receiver, hop.inInterface) ∈
        driver.bindings.receivers (request.group .routeBase) hop.sender hop.outInterface := by
      rw [LinkBindings.mem_receivers, ← group]
      exact bound ground
    unfold listeners
    split
    · rename_i empty
      rw [empty] at listed
      cases listed
    · exact listed
  · obtain ⟨neighbor, alone⟩ := Option.isSome_iff_exists.1 (resolved.resolve_left ground)
    have single := (network.interfaces.neighborOn?_eq_some made _ _ _).1 alone
    obtain rfl := (single _).1 links.1
    have unbound : driver.bindings.receivers (request.group .routeBase) hop.sender
        hop.outInterface = [] := by
      rw [List.eq_nil_iff_forall_not_mem]
      intro listener listed
      rw [LinkBindings.mem_receivers, ← group] at listed
      obtain ⟨other, crosses⟩ := driver.mem_hops_of_bound network keeps separate request member tree
        built ⟨hop.sender, hop.outInterface, listener.1, listener.2⟩ listed
      have led := (Tree.interfaces_of_mem_hops request network tree built _ other).1
      rw [(single _).1 led] at crosses
      exact ground crosses
    unfold listeners
    rw [unbound]
    dsimp only
    rw [neighbor?, held, Option.bind_some, keeps.interfaces snapshot held, alone, Option.bind_some,
      links.2]
    simp

section
variable (hop : Hop) (inside : hop ∈ tree.hops) (packet : Packet)
  (group : packet.group = request.group .routeBase)
include inside group

theorem mem_hops_of_transmit (receiver : NodeId) (interface : InterfaceId) (copy : Packet)
    (sent : .copy receiver interface copy ∈
      driver.transmit hop.sender hop.outInterface packet) :
    copy = packet ∧ ⟨hop.sender, hop.outInterface, receiver, interface⟩ ∈ tree.hops := by
  obtain ⟨same, hears⟩ := driver.eq_of_transmit _ receiver _ interface packet copy sent
  rw [group] at hears
  exact ⟨same, driver.mem_hops_of_listener network keeps made separate request member tree built hop
    inside _ hears⟩

theorem nodup_receivers_transmit :
    ((driver.transmit hop.sender hop.outInterface packet).filterMap Effect.receiver?).Nodup := by
  have hears := driver.mem_hops_of_listener network keeps made separate request member tree built hop
    inside
  have listeners : (driver.listeners (request.group .routeBase) hop.sender hop.outInterface).Nodup := by
    unfold RefreshDriver.listeners
    split
    · cases driver.neighbor? hop.sender hop.outInterface with
      | none => exact List.nodup_nil
      | some listener => exact List.nodup_singleton listener
    · exact driver.bindings.nodup_receivers _ _ _
  unfold transmit
  rw [group]
  split
  · exact List.nodup_nil
  · have receivers : Effect.receiver? ∘ (fun listener => .copy listener.1 listener.2 packet) =
        some ∘ Prod.fst := rfl
    rw [List.filterMap_map, receivers, List.filterMap_eq_map]
    refine listeners.map_on fun one first other second same => ?_
    -- The interface that a receiver is entered on is that of its link to the sender.
    have entered := (Tree.interfaces_of_mem_hops request network tree built _ (hears one first)).2
    have entered' := (Tree.interfaces_of_mem_hops request network tree built _ (hears other second)).2
    dsimp only at entered entered' same
    rw [same] at entered
    exact Prod.ext same (Option.some.inj (entered.symm.trans entered'))

end

theorem spreads_emitRouted (hopLimit sequence : Nat) (effects : List Effect)
    (emitted : driver.emitRouted request hopLimit sequence = .ok effects) :
    tree.Spreads request.source (routedPacket request hopLimit sequence tree.origin.interface)
      effects := by
  unfold emitRouted at emitted
  split at emitted
  · cases emitted
  · rename_i interface decided
    cases emitted
    rcases keeps.decides request member _ _ _ decided with none | ⟨tree', built', decision⟩
    · cases none
    · cases built.symm.trans built'
      rw [Tree.decisionAt_source request network tree built] at decision
      cases decision
      obtain ⟨hop, inside, leaves, out⟩ := (Tree.mem_outputs_of_build request network tree built _ _).1
        ((request.outputsAt_source network tree built _).2 rfl)
      have crosses := driver.mem_hops_of_transmit network keeps made separate request member tree built
        hop inside (routedPacket request hopLimit sequence tree.origin.interface) rfl
      have apart := driver.nodup_receivers_transmit network keeps made separate request member tree
        built hop inside (routedPacket request hopLimit sequence tree.origin.interface) rfl
      rw [leaves, out] at crosses apart
      exact ⟨fun receiver interface copy sent =>
        ⟨(crosses receiver interface copy sent).1, _, (crosses receiver interface copy sent).2⟩, apart⟩
  · cases emitted
    exact ⟨by simp, List.nodup_nil⟩

theorem spreads_relay (hop : Hop) (inside : hop ∈ tree.hops) (hopLimit sequence : Nat) :
    (∀ receiver interface copy, Effect.copy receiver interface copy ∈ driver.relay hop.sender
        (routedPacket request hopLimit sequence tree.origin.interface) hop.outInterface →
      copy = routedPacket request (hopLimit - 1) sequence tree.origin.interface ∧
        ⟨hop.sender, hop.outInterface, receiver, interface⟩ ∈ tree.hops) ∧
      ((driver.relay hop.sender (routedPacket request hopLimit sequence tree.origin.interface)
        hop.outInterface).filterMap Effect.receiver?).Nodup := by
  unfold relay Packet.forwarded?
  by_cases spent : (routedPacket request hopLimit sequence tree.origin.interface).hopLimit ≤ 1
  · rw [if_pos spent]
    exact ⟨by simp, List.nodup_nil⟩
  · rw [if_neg spent]
    have crosses := driver.mem_hops_of_transmit network keeps made separate request member tree built
      hop inside (routedPacket request (hopLimit - 1) sequence tree.origin.interface) rfl
    have apart := driver.nodup_receivers_transmit network keeps made separate request member tree
      built hop inside (routedPacket request (hopLimit - 1) sequence tree.origin.interface) rfl
    exact ⟨crosses, apart⟩

theorem spreads_relays (node : NodeId) (interfaces : List InterfaceId) (distinct : interfaces.Nodup)
    (leave : ∀ interface ∈ interfaces,
      ∃ hop ∈ tree.hops, hop.sender = node ∧ hop.outInterface = interface)
    (hopLimit sequence : Nat) :
    tree.Spreads node (routedPacket request (hopLimit - 1) sequence tree.origin.interface)
      (interfaces.flatMap
        (driver.relay node (routedPacket request hopLimit sequence tree.origin.interface))) := by
  have relayed := fun hop inside => driver.spreads_relay network keeps made separate request member tree
    built hop inside hopLimit sequence
  refine Tree.spreads_flatMap request network tree built node _ interfaces distinct _ ?_ ?_
  · intro interface listed
    obtain ⟨hop, inside, rfl, rfl⟩ := leave interface listed
    exact (relayed hop inside).1
  · intro interface listed
    obtain ⟨hop, inside, rfl, rfl⟩ := leave interface listed
    exact (relayed hop inside).2

/-- A node that receives a packet of a tree spreads it further. It takes the packet at most once, and
only as a destination. -/
theorem spreads_receiveRouted (node : NodeId) (hopLimit sequence : Nat) (isDestination : Bool)
    (effects : List Effect)
    (received : driver.receiveRouted node
      (routedPacket request hopLimit sequence tree.origin.interface) isDestination = .ok effects) :
    tree.Spreads node (routedPacket request (hopLimit - 1) sequence tree.origin.interface) effects ∧
      effects.countP (· = .deliver) ≤ if isDestination then 1 else 0 := by
  unfold receiveRouted at received
  split at received
  · cases received
  · split at received
    · cases received
    · rename_i interfaces decided
      cases received
      rcases keeps.decides request member _ _ _ decided with none | ⟨tree', built', decision⟩
      · cases none
      · cases built.symm.trans built'
        obtain ⟨distinct, leave⟩ :=
          Tree.hops_of_decisionAt request network tree built node interfaces decision.symm
        have spreads := driver.spreads_relays network keeps made separate request member tree built node
          interfaces distinct leave hopLimit sequence
        have none : (interfaces.flatMap (driver.relay node
            (routedPacket request hopLimit sequence tree.origin.interface))).countP
              (· = .deliver) = 0 := by
          rw [List.countP_eq_zero]
          intro effect sent
          obtain ⟨interface, _, sent⟩ := List.mem_flatMap.1 sent
          simpa using driver.ne_deliver_of_relay node _ interface effect sent
        cases isDestination with
        | false => exact ⟨spreads, Nat.le_of_eq none⟩
        | true =>
          refine ⟨⟨fun receiver interface copy sent => ?_, spreads.apart⟩, ?_⟩
          · exact spreads.crosses receiver interface copy (by simpa using sent)
          · rw [List.countP_append, none]
            simp
    · cases received
      exact ⟨⟨by simp, List.nodup_nil⟩, by simp⟩

end

end RefreshDriver
end Multicast
