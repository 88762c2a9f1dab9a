import Multicast.Proofs.Simulation.Passage

/-!
Packets that arrive once. Where no node of a tree is entered over two hops, whatever arrives at a node
has come from the one node before it. Main statement: with route tables on one network, no packet of
such a request arrives twice at a node.
-/

namespace Multicast
open Std

/-- No node is entered over two hops of the tree. -/
def Tree.EntersOnce (tree : Tree) : Prop :=
  ∀ one ∈ tree.hops, ∀ other ∈ tree.hops, one.receiver = other.receiver → one = other

instance (tree : Tree) : Decidable tree.EntersOnce :=
  decidable_of_iff (∀ one ∈ tree.hops.toList, ∀ other ∈ tree.hops.toList,
    one.receiver = other.receiver → one = other) (by simp only [Tree.EntersOnce, ExtTreeSet.mem_toList])

def Packet.sequence? (packet : Packet) : Option UInt64 :=
  match PacketHeader.decode packet.header with
  | .error _ => none
  | .ok (header, _) => some header.sequence

theorem RefreshDriver.sequence?_routedPacket (request : Request) (hopLimit sequence : Nat)
    (interface : InterfaceId) :
    (routedPacket request hopLimit sequence interface).sequence? = some (UInt64.ofNat sequence) := by
  unfold Packet.sequence? routedPacket
  rw [PacketHeader.decode_encode]

def Booking.delivery? (booking : Booking) : Option Delivery :=
  match booking.node, booking.event with
  | some node, .arrival packet _ =>
    packet.sequence?.map fun sequence => ⟨packet.request, sequence, node⟩
  | _, _ => none

theorem Booking.delivery?_eq_some (booking : Booking) (delivery : Delivery)
    (found : booking.delivery? = some delivery) :
    ∃ packet interface, booking.event = .arrival packet interface ∧
      booking.node = some delivery.node ∧ packet.request = delivery.request ∧
        packet.sequence? = some delivery.sequence := by
  unfold delivery? at found
  split at found
  · rename_i packet interface located arrives
    obtain ⟨sequence, number, rfl⟩ := Option.map_eq_some_iff.1 found
    exact ⟨packet, interface, arrives, located, rfl, number⟩
  · cases found

theorem Booking.delivery?_routedPacket (node : NodeId) (time : Nat) (request : Request)
    (hopLimit sequence : Nat) (interface entered : InterfaceId) :
    (⟨some node, time, .arrival (RefreshDriver.routedPacket request hopLimit sequence interface)
      entered⟩ : Booking).delivery? = some ⟨request.id, UInt64.ofNat sequence, node⟩ := by
  simp only [delivery?, RefreshDriver.sequence?_routedPacket]
  rfl

/-- The deliveries of the packets of a request that have arrived or will, if the nodes take them. -/
def arrivals (request : RequestId) (bookings : List Booking) : List Delivery :=
  (bookings.filterMap Booking.delivery?).filter (·.request = request)

theorem mem_arrivals (request : RequestId) (bookings : List Booking) (delivery : Delivery) :
    delivery ∈ arrivals request bookings ↔
      ∃ booking ∈ bookings, booking.delivery? = some delivery ∧ delivery.request = request := by
  simp only [arrivals, List.mem_filter, List.mem_filterMap, decide_eq_true_eq]
  constructor
  · rintro ⟨⟨booking, listed, found⟩, about⟩
    exact ⟨booking, listed, found, about⟩
  · rintro ⟨booking, listed, found, about⟩
    exact ⟨⟨booking, listed, found⟩, about⟩

theorem arrivals_append (request : RequestId) (bookings more : List Booking) :
    arrivals request (bookings ++ more) = arrivals request bookings ++ arrivals request more := by
  simp [arrivals]

open scoped List in
theorem arrivals_perm (request : RequestId) (bookings others : List Booking)
    (perm : bookings ~ others) : arrivals request bookings ~ arrivals request others :=
  (perm.filterMap _).filter _

namespace Simulation
variable {σ : Type}

theorem receivers_of_effects (request : RequestId) (arrival : Nat) (effects : List Effect) :
    ((arrivals request (effects.filterMap (Effect.booking? arrival))).map Delivery.node).Sublist
      (effects.filterMap Effect.receiver?) := by
  induction effects with
  | nil => exact .slnil
  | cons effect rest ih =>
    cases effect with
    | copy receiver interface packet =>
      have first : ((arrivals request [⟨some receiver, arrival, .arrival packet interface⟩]).map
          Delivery.node).Sublist [receiver] := by
        unfold arrivals
        cases number : packet.sequence? with
        | none => simp [Booking.delivery?, number]
        | some sequence =>
          by_cases about : packet.request = request
          · simp [Booking.delivery?, number, about]
          · simp [Booking.delivery?, number, about]
      have both := first.append ih
      rwa [← List.map_append, ← arrivals_append] at both
    | _ => exact ih

theorem arrivals_bookings [SnapshotSource σ] (simulation : Simulation σ) (node : Option NodeId)
    (event : Event) (effects : List Effect) (happens : simulation.effects node event = .ok effects)
    (request : RequestId) :
    arrivals request (simulation.bookings node event) = arrivals request
      (effects.filterMap (Effect.booking? (simulation.now + simulation.config.linkLatency))) := by
  have none : arrivals request (simulation.sequels event) = [] := by
    rw [List.eq_nil_iff_forall_not_mem]
    intro delivery member
    obtain ⟨booking, sequel, found, _⟩ := (mem_arrivals ..).1 member
    obtain ⟨packet, interface, arrives, _⟩ := booking.delivery?_eq_some delivery found
    exact simulation.ne_arrival_of_sequels event booking sequel packet interface arrives
  rw [simulation.bookings_of_ok node event effects happens, arrivals_append, none, List.append_nil]

theorem sent_le_events_of_course [SnapshotSource σ] (config : SimulationConfig) (source : σ)
    (roles : NodeRoles) (requests : List Request) (positions : BitPositions)
    (log : List (Moment σ)) (simulation : Simulation σ)
    (course : (start config source roles requests positions).Course log simulation) :
    (∀ request, simulation.sent request ≤ simulation.stats.events) ∧
      simulation.stats.events ≤ eventAllowance := by
  induction course with
  | start => exact ⟨by simp [sent_start], by simp [start]⟩
  | step log simulation later horizon key event queue result _ counted _ handled ih =>
    have counts := counts_handle (simulation.pop event queue) key.node event
    rw [handled] at counts
    have events : later.stats.events = simulation.stats.events + 1 := counts.events
    refine ⟨fun request => ?_, by omega⟩
    have sent : later.sent request ≤ (simulation.pop event queue).sent request + 1 :=
      counts.sent request
    have before : (simulation.pop event queue).sent request ≤ simulation.stats.events := ih.1 request
    omega
  | rest log simulation horizon _ _ ih => exact ih

theorem number_small_of_course [SnapshotSource σ] (config : SimulationConfig) (source : σ)
    (roles : NodeRoles) (requests : List Request) (positions : BitPositions)
    (log : List (Moment σ)) (simulation : Simulation σ)
    (course : (start config source roles requests positions).Course log simulation)
    (request : RequestId) (sequence : Nat) (numbered : sequence < simulation.sent request) :
    sequence < UInt64.size := by
  obtain ⟨limited, bounded⟩ := sent_le_events_of_course config source roles requests positions log
    simulation course
  exact Nat.lt_of_lt_of_le numbered (Nat.le_trans (limited request) bounded)

section
variable (config : SimulationConfig) (roles : NodeRoles) (requests : List Request)
  (positions : BitPositions) (network : Snapshot)
  (routed : config.refresh.forwarding = .routeTable)
  (distinct : requests.Pairwise fun one other => one.id % 2 ^ 32 ≠ other.id % 2 ^ 32)
  (made : network.interfaces.Made) (request : Request) (member : request ∈ requests) (tree : Tree)
  (built : Tree.build request network = .ok tree) [SnapshotSource σ]
include routed distinct made member built

theorem exists_hop_of_arrivals (simulation : Simulation σ)
    (stands : Stands config roles requests positions network simulation) (node : Option NodeId)
    (event : Event)
    (brings : simulation.Brings event request tree) (delivery : Delivery)
    (fresh : delivery ∈ arrivals request.id (simulation.bookings node event)) :
    ∃ effects hopLimit, ∃ sequence < (simulation.handle node event).2.sent request.id,
      ∃ hop ∈ tree.hops, simulation.effects node event = .ok effects ∧
        simulation.Sends node event request tree sequence hop.sender ∧
        tree.Spreads hop.sender
          (RefreshDriver.routedPacket request hopLimit sequence tree.origin.interface) effects ∧
        delivery = ⟨request.id, UInt64.ofNat sequence, hop.receiver⟩ := by
  obtain ⟨booking, booked, found, about⟩ := (mem_arrivals ..).1 fresh
  obtain ⟨packet, interface, arrives, located, same, number⟩ :=
    booking.delivery?_eq_some delivery found
  obtain ⟨effects, receiver, happens, sent, rfl⟩ :=
    simulation.exists_copy_of_booking node event booking booked packet interface arrives
  obtain ⟨sender, hopLimit, sequence, numbered, sends, spreads⟩ :=
    spreads_of_effects config roles requests positions network routed distinct made simulation stands
      request member tree built effects node event happens brings receiver interface packet sent
      (same.trans about)
  obtain ⟨rfl, leaving, inside⟩ := spreads.crosses receiver interface packet sent
  rw [RefreshDriver.sequence?_routedPacket] at number
  refine ⟨effects, hopLimit, sequence, numbered, _, inside, happens, sends, spreads, ?_⟩
  obtain ⟨_, _, _⟩ := delivery
  cases located
  cases number
  cases about
  rfl

theorem nodup_arrivals_bookings (simulation : Simulation σ)
    (stands : Stands config roles requests positions network simulation) (node : Option NodeId)
    (event : Event) (brings : simulation.Brings event request tree) :
    (arrivals request.id (simulation.bookings node event)).Nodup := by
  rcases same : arrivals request.id (simulation.bookings node event) with _ | ⟨first, rest⟩
  · exact List.nodup_nil
  · obtain ⟨effects, _, _, _, _, _, happens, _, spreads, _⟩ :=
      exists_hop_of_arrivals config roles requests positions network routed distinct made request member
        tree built simulation stands node event brings first (by rw [same]; exact List.mem_cons_self)
    rw [← same, simulation.arrivals_bookings node event effects happens]
    exact (spreads.apart.sublist (receivers_of_effects _ _ effects)).of_map _

section
variable (source : σ) (log : List (Moment σ)) (simulation : Simulation σ)
  (earlier : (start config source roles requests positions).Course log simulation)
  (shown : Shown network log) (horizon : Nat) (key : EventKey) (event : Event) (queue : EventQueue)
  (popped : simulation.queue.popUntil horizon = some (key, event, queue))
include earlier shown popped

theorem brings_of_course : (simulation.pop event queue).Brings event request tree := by
  have out := simulation.queue.popped_of_popUntil queue horizon key event popped
  exact Passes.brings simulation log _ request tree (.ofEntry (key, event))
    (passes_of_course config roles requests positions network routed distinct source made request member
      tree built log simulation earlier shown _
      (List.mem_append_right _ (out.booked.mem_iff.2 List.mem_cons_self)))

variable (nodup : (arrivals request.id (occurrences log simulation)).Nodup)
include nodup

/-- No node sends a packet twice: it would have come there twice. -/
theorem not_sends_of_sends (moment : Moment σ) (logged : moment ∈ log) (sequence : Nat)
    (numbered : sequence < simulation.sent request.id) (sender : NodeId)
    (sent : moment.before.Sends moment.key.node moment.event request tree sequence sender) :
    ¬(simulation.pop event queue).Sends key.node event request tree sequence sender := by
  have out := simulation.queue.popped_of_popUntil queue horizon key event popped
  have waiting : .ofEntry (key, event) ∈ simulation.queue.booked :=
    out.booked.mem_iff.2 List.mem_cons_self
  rintro (⟨_, _, next⟩ | ⟨here, hopLimit, interface, arrives⟩)
  · exact absurd next (Nat.ne_of_gt numbered)
  · have entry : (Booking.ofEntry (key, event)).delivery? =
        some ⟨request.id, UInt64.ofNat sequence, sender⟩ := by
      rw [Booking.ofEntry, here, arrives]
      exact Booking.delivery?_routedPacket ..
    rcases sent with ⟨_, atSource, _⟩ | ⟨there, hopLimit', interface', arrived⟩
    · obtain ⟨_, _, before, entered, _, _, _, _, booked⟩ :=
        passes_of_course config roles requests positions network routed distinct source made request
          member tree built log simulation earlier shown _ (List.mem_append_right _ waiting) _ interface
          arrives rfl
      have back := congrArg Booking.node booked
      simp only [Booking.ofEntry, here, Option.some.injEq] at back
      exact Tree.receiver_ne_source request network tree built before entered (back.symm.trans atSource)
    · have again : moment.booking.delivery? =
          some ⟨request.id, UInt64.ofNat sequence, sender⟩ := by
        rw [Moment.booking, Booking.ofEntry, there, arrived]
        exact Booking.delivery?_routedPacket ..
      unfold occurrences at nodup
      rw [arrivals_append, List.nodup_append] at nodup
      exact nodup.2.2 _ ((mem_arrivals ..).2 ⟨_, List.mem_map_of_mem logged, again, rfl⟩) _
        ((mem_arrivals ..).2 ⟨_, waiting, entry, rfl⟩) rfl

theorem not_mem_arrivals_of_bookings (once : tree.EntersOnce)
    (counted : simulation.stats.events < eventAllowance) (delivery : Delivery)
    (fresh : delivery ∈ arrivals request.id ((simulation.pop event queue).bookings key.node event)) :
    delivery ∉ arrivals request.id (occurrences log simulation) := by
  intro old
  obtain ⟨stands, _⟩ := stands_of_course config roles requests positions network routed distinct source
    log simulation earlier shown
  obtain ⟨_, _, sequence, numbered, hop, inside, _, sends, _, rfl⟩ :=
    exists_hop_of_arrivals config roles requests positions network routed distinct made request member
      tree built (simulation.pop event queue) (stands.pop event queue) key.node event
      (brings_of_course config roles requests positions network routed distinct made request member tree
        built source log simulation earlier shown horizon key event queue popped) delivery fresh
  obtain ⟨booking, booked, found, _⟩ := (mem_arrivals ..).1 old
  obtain ⟨_, _, arrives, located, same, number⟩ := booking.delivery?_eq_some _ found
  obtain ⟨sequence', numbered', hop', inside', _, moment, logged, sends', rfl⟩ :=
    passes_of_course config roles requests positions network routed distinct source made request member
      tree built log simulation earlier shown booking booked _ _ arrives same
  cases arrives
  obtain rfl := once hop' inside' hop inside (Option.some.inj located)
  obtain rfl : sequence' = sequence := by
    rw [RefreshDriver.sequence?_routedPacket, Option.some.injEq] at number
    have small := number_small_of_course config source roles requests positions _ _
      (earlier.step log simulation _ horizon key event queue _ counted popped rfl) request.id sequence
      numbered
    have small' := number_small_of_course config source roles requests positions log simulation earlier
      request.id sequence' numbered'
    rw [← UInt64.toNat_ofNat_of_lt' small, ← UInt64.toNat_ofNat_of_lt' small', number]
  exact not_sends_of_sends config roles requests positions network routed distinct made request member
    tree built source log simulation earlier shown horizon key event queue popped nodup moment logged
    sequence' numbered' _ sends' sends

end

/-- No packet of a request arrives twice at a node, whether it has arrived or is on its way. -/
theorem nodup_arrivals_of_course (once : tree.EntersOnce) (source : σ) (log : List (Moment σ))
    (simulation : Simulation σ)
    (course : (start config source roles requests positions).Course log simulation)
    (shown : Shown network log) : (arrivals request.id (occurrences log simulation)).Nodup := by
  induction course with
  | start =>
    have none : arrivals request.id
        (occurrences [] (start config source roles requests positions)) = [] := by
      rw [List.eq_nil_iff_forall_not_mem]
      intro delivery listed
      obtain ⟨booking, booked, found, _⟩ := (mem_arrivals ..).1 listed
      obtain ⟨packet, interface, arrives, _⟩ := booking.delivery?_eq_some delivery found
      exact ne_arrival_of_start config source roles requests positions booking booked packet interface
        arrives
    rw [none]
    exact List.nodup_nil
  | step log simulation later horizon key event queue result earlier counted popped handled ih =>
    have before := (List.forall_mem_append.1 shown).1
    obtain ⟨stands, _⟩ := stands_of_course config roles requests positions network routed distinct source
      log simulation earlier before
    have brings := brings_of_course config roles requests positions network routed distinct made request
      member tree built source log simulation earlier before horizon key event queue popped
    obtain ⟨perm, _⟩ := occurrences_step config source roles requests positions log simulation later
      earlier horizon key event queue result popped handled
    rw [(arrivals_perm _ _ _ perm).nodup_iff, arrivals_append, List.nodup_append]
    refine ⟨nodup_arrivals_bookings config roles requests positions network routed distinct made request
      member tree built _ (stands.pop event queue) key.node event brings, ih before, ?_⟩
    rintro delivery fresh _ old rfl
    exact not_mem_arrivals_of_bookings config roles requests positions network routed distinct made
      request member tree built source log simulation earlier before horizon key event queue popped
      (ih before) once counted delivery fresh old
  | rest log simulation horizon _ _ ih => exact ih shown

end

end Simulation
end Multicast
