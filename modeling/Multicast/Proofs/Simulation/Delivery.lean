import Multicast.Proofs.Simulation.Accounts
import Multicast.Proofs.Simulation.Static

/-!
Delivery in static runs. A packet follows the path to each of its destinations hop by hop: every event
on the path sends the copy that the next one receives. Main statement: a packet is delivered at each
destination within the hop limit, a link latency for every hop after its burst, and arrives over hops
of its tree only.
-/

namespace Multicast
open Std

theorem RefreshDriver.exists_tree_of_emitRouted {σ : Type} (driver : RefreshDriver σ)
    (network : Snapshot) (keeps : driver.Keeps network) (request : Request)
    (member : request ∈ driver.requests) (hopLimit sequence : Nat) (effects : List Effect)
    (emitted : driver.emitRouted request hopLimit sequence = .ok effects) (receiver : NodeId)
    (interface : InterfaceId) (packet : Packet) (sent : .copy receiver interface packet ∈ effects) :
    ∃ tree, Tree.build request network = .ok tree := by
  unfold emitRouted at emitted
  split at emitted
  · cases emitted
  · rename_i decided
    rcases keeps.decides request member _ _ _ decided with none | ⟨tree, built, _⟩
    · cases none
    · exact ⟨tree, built⟩
  · cases emitted
    simp at sent

section
variable {σ : Type} {config : SimulationConfig} {roles : NodeRoles} {requests : List Request}
  {positions : BitPositions} {network : Snapshot} {simulation : Simulation σ}
  (stands : Stands config roles requests positions network simulation)
  (routed : config.refresh.forwarding = .routeTable)
  (distinct : requests.Pairwise fun one other => one.id % 2 ^ 32 ≠ other.id % 2 ^ 32)
  (request : Request) (member : request ∈ requests)
include stands distinct member

theorem Stands.request?_of_mem : simulation.driver.request? request.id = some request := by
  apply simulation.driver.request?_of_mem
  · rw [stands.requests_eq]
    exact distinct.imp fun different same => different (by rw [same])
  · rw [stands.requests_eq]
    exact member

include routed

theorem Stands.effects_burst (node : Option NodeId) :
    simulation.effects node (.burst request.id) =
      simulation.driver.emitRouted request config.hopLimit (simulation.sent request.id) := by
  simp only [Simulation.effects, stands.request?_of_mem distinct request member]
  unfold RefreshDriver.emit
  rw [stands.routed routed, stands.configured]

theorem Stands.effects_arrival (node : NodeId) (packet : Packet) (own : packet.request = request.id)
    (interface : InterfaceId) :
    simulation.effects (some node) (.arrival packet interface) =
      simulation.driver.receiveRouted node packet (request.destinations.contains node) := by
  simp only [Simulation.effects, RefreshDriver.receive, own,
    stands.request?_of_mem distinct request member, stands.routed routed]

end

namespace Simulation

section
variable {σ : Type} [SnapshotSource σ] (config : SimulationConfig) (source : σ) (roles : NodeRoles)
  (requests : List Request) (positions : BitPositions) (log : List (Moment σ))
  (simulation : Simulation σ)

theorem exists_request_of_burst
    (course : (start config source roles requests positions).Course log simulation)
    (booking : Booking) (listed : booking ∈ occurrences log simulation) (id : RequestId)
    (burst : booking.event = .burst id) :
    ∃ request ∈ requests, request.id = id ∧ request.duration ≠ 0 := by
  induction course generalizing booking with
  | start =>
    have first := (booked_start config source roles requests positions).mem_iff.1 listed
    rcases List.mem_cons.1 first with rfl | first
    · cases burst
    · obtain ⟨request, chosen, rfl⟩ := List.mem_map.1 first
      cases burst
      obtain ⟨member, lasting⟩ := List.mem_filter.1 chosen
      exact ⟨request, member, rfl, of_decide_eq_true lasting⟩
  | step log simulation later horizon key event queue result earlier _ popped handled ih =>
    obtain ⟨perm, handling⟩ := occurrences_step config source roles requests positions log simulation
      later earlier horizon key event queue result popped handled
    rcases List.mem_append.1 (perm.mem_iff.1 listed) with fresh | old
    · rcases copy_or_sequel_of_mem_bookings _ _ _ booking fresh with ⟨_, _, _, _, _, _, rfl⟩ | sequel
      · cases burst
      · rcases event_of_sequels _ _ booking sequel with ⟨_, _, _, timer⟩ | ⟨other, same, again⟩
        · cases timer.symm.trans burst
        · cases again.symm.trans burst
          exact ih _ handling same
    · exact ih booking old burst
  | rest log simulation horizon _ _ ih => exact ih booking listed burst

section
variable (network : Snapshot) (routed : config.refresh.forwarding = .routeTable)
  (distinct : requests.Pairwise fun one other => one.id % 2 ^ 32 ≠ other.id % 2 ^ 32)
  (request : Request) (member : request ∈ requests)
  (course : (start config source roles requests positions).Course log simulation)
  (shown : Shown network log)
include routed distinct member course shown

theorem exists_tree_of_arrival (booking : Booking) (listed : booking ∈ occurrences log simulation)
    (packet : Packet) (interface : InterfaceId) (arrives : booking.event = .arrival packet interface)
    (own : packet.request = request.id) : ∃ tree, Tree.build request network = .ok tree := by
  induction course generalizing booking packet interface with
  | start =>
    exact absurd arrives (ne_arrival_of_start config source roles requests positions booking listed
      packet interface)
  | step log simulation later horizon key event queue result earlier _ popped handled ih =>
    have before := (List.forall_mem_append.1 shown).1
    obtain ⟨stands, _⟩ := stands_of_course config roles requests positions network routed distinct source
      log simulation earlier before
    have stands := stands.pop event queue
    obtain ⟨perm, handling⟩ := occurrences_step config source roles requests positions log simulation
      later earlier horizon key event queue result popped handled
    rcases List.mem_append.1 (perm.mem_iff.1 listed) with fresh | old
    · obtain ⟨effects, receiver, happens, sent, rfl⟩ :=
        exists_copy_of_booking _ key.node event booking fresh packet interface arrives
      rcases request_of_effects _ key.node event effects happens receiver
        interface packet sent with burst | ⟨arriving, entered, rfl, same⟩
      · rw [own] at burst
        subst burst
        rw [stands.effects_burst routed distinct request member] at happens
        exact RefreshDriver.exists_tree_of_emitRouted _ network stands.keeps request
          (stands.requests_eq ▸ member) _ _ effects happens receiver interface packet sent
      · exact ih before _ handling arriving entered rfl (same.trans own)
    · exact ih before booking old packet interface arrives own
  | rest log simulation horizon _ _ ih => exact ih shown booking listed packet interface arrives own

omit member in
theorem exists_arrival_of_copy (moment : Moment σ) (logged : moment ∈ log) (effects : List Effect)
    (happens : moment.before.effects moment.key.node moment.event = .ok effects) (hop : Hop)
    (packet : Packet) (sent : .copy hop.receiver hop.inInterface packet ∈ effects) (further : Nat)
    (finished : simulation.queue.popUntil
      (moment.key.time + (further + 1) * config.linkLatency) = none) :
    ∃ later ∈ log, later.key.node = some hop.receiver ∧
      later.event = .arrival packet hop.inInterface ∧
      later.key.time + further * config.linkLatency =
        moment.key.time + (further + 1) * config.linkLatency := by
  have ordered := (gains_start config source roles requests positions).ordered
  obtain ⟨_, stands⟩ := stands_of_course config roles requests positions network routed distinct source
    log simulation course shown
  obtain ⟨_, proper⟩ := ordered_of_course _ simulation log ordered course
  have now : moment.before.now = moment.key.time := (proper moment logged).now
  have booked : ⟨some hop.receiver, moment.key.time + config.linkLatency,
      .arrival packet hop.inInterface⟩ ∈ moment.before.bookings moment.key.node moment.event := by
    rw [moment.before.bookings_of_ok _ _ effects happens, now, (stands moment logged).configured]
    exact List.mem_append_left _ (List.mem_filterMap.2 ⟨_, sent, rfl⟩)
  obtain ⟨later, listed, same⟩ := handled_of_booked _ simulation log ordered course moment logged _
    booked _ finished (by
      rw [Nat.succ_mul]
      exact Nat.add_le_add_left (Nat.le_add_left _ _) _)
  have time : later.key.time = moment.key.time + config.linkLatency := congrArg Booking.time same
  refine ⟨later, listed, congrArg Booking.node same, congrArg Booking.event same, ?_⟩
  rw [time, Nat.succ_mul]
  omega

section
variable (tree : Tree) (built : Tree.build request network = .ok tree)
  (upholds : ∀ moment ∈ log, moment.event.IsPacket → moment.before.driver.Upholds request tree)
  (destination : NodeId) (target : destination ∈ request.destinations)
include built upholds target

theorem mem_deliveries_of_arrival (away : destination ≠ request.source)
    (known : destination ∈ tree.nodes) (moment : Moment σ) (logged : moment ∈ log)
    (located : moment.key.node = some destination) (hopLimit sequence : Nat) (interface : InterfaceId)
    (arrives : moment.event = .arrival
      (RefreshDriver.routedPacket request hopLimit sequence tree.origin.interface) interface) :
    ⟨request.id, UInt64.ofNat sequence, destination⟩ ∈ moment.deliveries := by
  obtain ⟨_, stands⟩ := stands_of_course config roles requests positions network routed distinct source
    log simulation course shown
  obtain ⟨effects, received, taken⟩ := RefreshDriver.deliver_mem_receiveRouted _ network request tree
    built (upholds moment logged (by rw [arrives]; exact .inl rfl)) destination known away hopLimit sequence
  have inside : request.destinations.contains destination = true := ExtTreeSet.contains_iff_mem.2 target
  have happens := (stands moment logged).effects_arrival routed distinct request member destination
    (RefreshDriver.routedPacket request hopLimit sequence tree.origin.interface) rfl interface
  rw [inside, received] at happens
  have delivery : moment.booking.delivery? = some ⟨request.id, UInt64.ofNat sequence, destination⟩ := by
    rw [Moment.booking, Booking.ofEntry, located, arrives]
    exact Booking.delivery?_routedPacket ..
  unfold Moment.deliveries
  rw [delivery, arrives, located, happens]
  refine List.mem_replicate.2 ⟨?_, rfl⟩
  exact Nat.ne_of_gt (List.countP_pos_iff.2 ⟨_, taken, by simp⟩)

variable (made : network.interfaces.Made) (numbered : network.interfaces.Numbered)
  (resolved : tree.Resolved roles network)
include made numbered resolved

/-- A packet that arrives goes the rest of its path. -/
theorem delivered_of_arrival (rest : List Hop) (budget : Nat) (node : NodeId)
    (path : network.pathWithin destination budget node = .ok rest)
    (inside : ∀ hop ∈ rest, hop ∈ tree.hops) (known : node ∈ tree.nodes) (away : node ≠ request.source)
    (moment : Moment σ) (logged : moment ∈ log) (located : moment.key.node = some node)
    (hopLimit sequence : Nat) (left : rest.length < hopLimit) (interface : InterfaceId)
    (arrives : moment.event = .arrival
      (RefreshDriver.routedPacket request hopLimit sequence tree.origin.interface) interface)
    (finished : simulation.queue.popUntil
      (moment.key.time + rest.length * config.linkLatency) = none) :
    ∃ arrived ∈ log, arrived.key.time = moment.key.time + rest.length * config.linkLatency ∧
      ⟨request.id, UInt64.ofNat sequence, destination⟩ ∈ arrived.deliveries := by
  induction rest generalizing budget node moment hopLimit interface with
  | nil =>
    obtain ⟨rfl, _⟩ | ⟨_, _, _, _, _, _, _, absurd⟩ := (network.pathWithin_eq_ok ..).1 path
    · refine ⟨moment, logged, by simp, ?_⟩
      exact mem_deliveries_of_arrival config source roles requests positions log simulation network
        routed distinct request member course shown tree built upholds node target away known moment
        logged located hopLimit sequence interface arrives
    · cases absurd
  | cons hop rest ih =>
    obtain ⟨_, next, later, _, rfl, inner⟩ := network.pathWithin_cons _ _ _ _ _ path
    have crosses := inside _ List.mem_cons_self
    obtain ⟨_, stands⟩ := stands_of_course config roles requests positions network routed distinct source
      log simulation course shown
    have stands := stands moment logged
    have here : request ∈ moment.before.driver.requests := stands.requests_eq ▸ member
    have resolves : tree.Resolved moment.before.driver.roles network := stands.roles_eq ▸ resolved
    rw [List.length_cons] at left finished ⊢
    obtain ⟨effects, received, sent⟩ := RefreshDriver.copy_mem_receiveRouted _ network stands.keeps made
      (stands.separate distinct) request here tree built
      (upholds moment logged (by rw [arrives]; exact .inl rfl)) resolves _ crosses numbered away hopLimit
      sequence (by omega) (request.destinations.contains node)
    have happens := stands.effects_arrival routed distinct request member node
      (RefreshDriver.routedPacket request hopLimit sequence tree.origin.interface) rfl interface
    have received : moment.before.driver.receiveRouted node
        (RefreshDriver.routedPacket request hopLimit sequence tree.origin.interface)
        (request.destinations.contains node) = .ok effects := received
    rw [received, ← located, ← arrives] at happens
    obtain ⟨relayed, listed, there, arrived, time⟩ := exists_arrival_of_copy config source roles requests
      positions log simulation network routed distinct course shown moment logged effects happens _ _
      sent rest.length finished
    rw [← time] at finished ⊢
    exact ih later next.node inner (fun hop after => inside hop (List.mem_cons_of_mem _ after))
      ((Tree.mem_nodes request network tree built _).2 (.inr ⟨_, crosses, .inr rfl⟩))
      (Tree.receiver_ne_source request network tree built _ crosses) relayed listed there (hopLimit - 1)
      (by omega) _ arrived finished

theorem delivered_of_burst (hops : List Hop)
    (path : network.path request.source destination = .ok hops) (limited : hops.length ≤ config.hopLimit)
    (moment : Moment σ) (logged : moment ∈ log) (burst : moment.event = .burst request.id)
    (finished : simulation.queue.popUntil
      (moment.key.time + hops.length * config.linkLatency) = none) :
    ∃ arrived ∈ log, arrived.key.time = moment.key.time + hops.length * config.linkLatency ∧
      ⟨request.id, UInt64.ofNat (moment.before.sent request.id), destination⟩ ∈
        arrived.deliveries := by
  have inside : ∀ hop ∈ hops, hop ∈ tree.hops := fun hop crossed =>
    (Tree.mem_hops request network tree built hop).2 ⟨destination, target, hops, path, crossed⟩
  obtain ⟨_, apart, _⟩ := (Tree.build_eq_ok ..).1 built
  cases hops with
  | nil =>
    obtain ⟨here, _⟩ | ⟨_, _, _, _, _, _, _, absurd⟩ := (network.pathWithin_eq_ok ..).1 path
    · exact absurd target (here ▸ apart)
    · cases absurd
  | cons hop rest =>
    obtain ⟨_, next, later, _, rfl, inner⟩ := network.pathWithin_cons _ _ _ _ _ path
    have crosses := inside _ List.mem_cons_self
    obtain ⟨_, stands⟩ := stands_of_course config roles requests positions network routed distinct source
      log simulation course shown
    have stands := stands moment logged
    have here : request ∈ moment.before.driver.requests := stands.requests_eq ▸ member
    have resolves : tree.Resolved moment.before.driver.roles network := stands.roles_eq ▸ resolved
    obtain ⟨effects, emitted, sent⟩ := RefreshDriver.copy_mem_emitRouted _ network stands.keeps made
      (stands.separate distinct) request here tree built
      (upholds moment logged (by rw [burst]; exact .inr rfl)) resolves _ crosses rfl config.hopLimit
      (moment.before.sent request.id)
    have happens := stands.effects_burst routed distinct request member moment.key.node
    rw [emitted, ← burst] at happens
    rw [List.length_cons] at limited finished ⊢
    obtain ⟨relayed, listed, there, arrived, time⟩ := exists_arrival_of_copy config source roles requests
      positions log simulation network routed distinct course shown moment logged effects happens _ _
      sent rest.length finished
    rw [← time] at finished ⊢
    exact delivered_of_arrival config source roles requests positions log simulation network routed
      distinct request member course shown tree built upholds destination target made numbered resolved
      rest later next.node inner (fun hop after => inside hop (List.mem_cons_of_mem _ after))
      ((Tree.mem_nodes request network tree built _).2 (.inr ⟨_, crosses, .inr rfl⟩))
      (Tree.receiver_ne_source request network tree built _ crosses) relayed listed there config.hopLimit
      _ limited _ arrived finished

end

end

variable (static : config.refresh.forceStatic = true)
  (routed : config.refresh.forwarding = .routeTable)
  (distinct : requests.Pairwise fun one other => one.id % 2 ^ 32 ≠ other.id % 2 ^ 32)
  (network : Snapshot) (load : (SnapshotSource.load source 0).1 = .ok network)
  (made : network.interfaces.Made) (numbered : network.interfaces.Numbered)
  (resolved : ∀ request ∈ requests, ∀ tree, Tree.build request network = .ok tree →
    tree.Resolved roles network)
  (course : (start config source roles requests positions).Course log simulation)
  (flawless : Flawless log)
include static routed distinct load made numbered resolved course flawless

/-- In a static run without errors, with every link of the trees resolved, each packet of a request that
starts before the finish and before the last instant is delivered at every destination whose path is
within the hop limit, a link latency for every hop after its burst, once the run has come that far.
Packets of a request only arrive over hops of the request's tree. -/
theorem static_delivers_within_hop_limit (request : Request) (member : request ∈ requests) :
    (request.start < config.refresh.finishInstant → ∀ moment ∈ log, moment.event = .burst request.id →
      ∃ tree, Tree.build request network = .ok tree ∧ ∀ destination ∈ request.destinations,
        ∃ hops, network.path request.source destination = .ok hops ∧
          (hops.length ≤ config.hopLimit →
            simulation.queue.popUntil
              (moment.key.time + hops.length * config.linkLatency) = none →
            ∃ arrived ∈ log,
              arrived.key.time = moment.key.time + hops.length * config.linkLatency ∧
              ⟨request.id, UInt64.ofNat (moment.before.sent request.id), destination⟩ ∈
                arrived.deliveries)) ∧
      ∀ moment ∈ log, ∀ packet interface, moment.event = .arrival packet interface →
        packet.request = request.id → ∃ tree, Tree.build request network = .ok tree ∧
          ∃ sequence < simulation.sent request.id,
            Passes log config.linkLatency request tree sequence moment.booking := by
  have shown := shown_of_static config source roles requests positions static network load log simulation
    course flawless
  constructor
  · intro starts moment logged burst
    have lasts : 0 < request.finish := by
      obtain ⟨other, known, same, lasting⟩ := exists_request_of_burst config source roles requests
        positions log simulation course moment.booking
        (List.mem_append_left _ (List.mem_map_of_mem logged)) request.id burst
      obtain rfl := Request.eq_of_id requests
        (distinct.imp fun different same => different (by rw [same])) other request known member same
      exact Nat.lt_min.2 ⟨Nat.add_pos_right _ (Nat.pos_of_ne_zero lasting), by decide⟩
    have each := upholds_of_course config source roles requests positions static network load routed
      distinct log simulation course flawless request member starts lasts
    obtain ⟨tree, built, _⟩ := each moment logged (by rw [burst]; exact .inr rfl)
    have upholds : ∀ moment ∈ log, moment.event.IsPacket →
        moment.before.driver.Upholds request tree := by
      intro moment logged packet
      obtain ⟨other, built', upholds⟩ := each moment logged packet
      cases built.symm.trans built'
      exact upholds
    refine ⟨tree, built, fun destination target => ?_⟩
    obtain ⟨hops, path⟩ := Tree.exists_path request network tree built destination target
    exact ⟨hops, path, fun limited finished => delivered_of_burst config source roles requests positions
      log simulation network routed distinct request member course shown tree built upholds destination
      target made numbered (resolved request member tree built) hops path limited moment logged burst
      finished⟩
  · intro moment logged packet interface arrives own
    have listed : moment.booking ∈ occurrences log simulation :=
      List.mem_append_left _ (List.mem_map_of_mem logged)
    obtain ⟨tree, built⟩ := exists_tree_of_arrival config source roles requests positions log simulation
      network routed distinct request member course shown moment.booking listed packet interface arrives
      own
    exact ⟨tree, built, passes_of_course config roles requests positions network routed distinct source
      made request member tree built log simulation course shown moment.booking listed packet interface
      arrives own⟩

end

/-- Ground station 2 reaches station 3 through satellites 0 and 1. One interface of satellite 1 faces
stations 3 and 4. -/
def beam : Snapshot :=
  { (((Snapshot.empty 0 5).addLink 2 1 0 1).addLink 0 2 1 1 |>.addLink 1 2 3 1).addLink 1 2 4 1 with
    nextHops := ((NextHops.empty.set 2 3 [0]).set 0 3 [1]).set 1 3 [3] }

def beamRequest : Request := ⟨7, 2, (∅ : NodeSet).insertMany [3], 1200000.0, 5, 20, "", ""⟩

def beamRun : Simulation SnapshotPlan :=
  start { refresh := { finish := 30, forceStatic := true }, linkLatency := 2, hopLimit := 3 }
    (.always beam) (.ofCounts 5 2) [beamRequest] .empty

/-- The second packet is delivered three hops and six nanoseconds after its burst. -/
theorem static_delivers_within_hop_limit_beam :
    ∃ log simulation, beamRun.Course log simulation ∧ Flawless log ∧
      beam.interfaces.neighborOn? 1 2 = none ∧ ∃ moment ∈ log, moment.event = .burst 7 ∧
        moment.key.time = 15 ∧ ∃ arrived ∈ log, arrived.key.time = 21 ∧
          ⟨7, 1, 3⟩ ∈ arrived.deliveries := by
  have course := course_logUntil beamRun beamRun [] .start 30 100 (by decide)
  have flawless : Flawless (beamRun.logUntil 30 100).1 := flawless_of_all _ (by decide +kernel)
  have shared : beam.interfaces.neighborOn? 1 2 = none := by decide +kernel
  have burst : (beamRun.logUntil 30 100).1.any (fun moment =>
      moment.event = .burst 7 ∧ moment.key.time = 15 ∧ moment.before.sent 7 = 1) = true := by
    decide +kernel
  have after : (beamRun.logUntil 30 100).2.queue.waiting.all (21 < ·.1.time) = true := by
    decide +kernel
  have resolved : ∀ request ∈ [beamRequest], ∀ tree, Tree.build request beam = .ok tree →
      tree.Resolved (.ofCounts 5 2) beam := by
    intro request member tree built
    obtain rfl := List.mem_singleton.1 member
    have each : (Tree.build beamRequest beam).toOption.all (·.Resolved (.ofCounts 5 2) beam) = true := by
      decide +kernel
    rw [built] at each
    exact of_decide_eq_true each
  have three : (beam.path 2 3).toOption.map List.length = some 3 := by decide +kernel
  obtain ⟨moment, logged, facts⟩ := List.any_eq_true.1 burst
  obtain ⟨burst, time, sent⟩ := of_decide_eq_true facts
  obtain ⟨tree, _, delivered⟩ := (static_delivers_within_hop_limit _ (.always beam : SnapshotPlan) _
    [beamRequest] _ _ _ rfl rfl (by simp) beam rfl
    (.insert _ _ _ _ (.insert _ _ _ _ (.insert _ _ _ _ (.insert _ _ _ _ (.insert _ _ _ _
      (.insert _ _ _ _ (.insert _ _ _ _ (.insert _ _ _ _ .empty)))))))) (by decide +kernel) resolved
    course flawless beamRequest List.mem_cons_self).1 (by decide) moment logged burst
  obtain ⟨hops, path, delivered⟩ := delivered 3 (by decide +kernel)
  have path : beam.path 2 3 = .ok hops := path
  rw [path] at three
  have three : hops.length = 3 := Option.some.inj three
  obtain ⟨arrived, listed, at21, taken⟩ := delivered (Nat.le_of_eq three) (by
    rw [three, time]
    exact (EventQueue.popUntil_eq_none _ _).2 (by simpa using after))
  rw [three, time] at at21
  have taken : ⟨7, UInt64.ofNat (moment.before.sent 7), 3⟩ ∈ arrived.deliveries := taken
  rw [sent] at taken
  exact ⟨_, _, course, flawless, shared, moment, logged, burst, time, arrived, listed, at21, taken⟩

def lateRequest : Request := ⟨0, 0, (∅ : NodeSet).insertMany [1], 1.0, 10, 5, "", ""⟩

def lateRun : Simulation SnapshotPlan :=
  start { refresh := { finish := 10, forceStatic := true }, linkLatency := 0 } (.always (.diamond 0 1))
    (.terrestrial 4) [lateRequest] .empty

/-- The burst at the finish still takes place, but the window of the one refresh ends before it: the
packet has no route and is delivered nowhere. -/
theorem late_is_not_delivered :
    ∃ log simulation, lateRun.Course log simulation ∧ Flawless log ∧
      (∃ tree, Tree.build lateRequest (.diamond 0 1) = .ok tree ∧
        tree.Resolved (.terrestrial 4) (.diamond 0 1)) ∧
      ((Snapshot.diamond 0 1).path 0 1).toOption.map List.length = some 1 ∧
      simulation.queue.popUntil 10 = none ∧
      (∃ moment ∈ log, moment.event = .burst 0 ∧ moment.key.time = 10) ∧
      simulation.stats.droppedNoRoute = 1 ∧ log.flatMap Moment.deliveries = [] := by
  have course := course_logUntil lateRun lateRun [] .start 10 100 (by decide)
  have flawless : Flawless (lateRun.logUntil 10 100).1 := flawless_of_all _ (by decide +kernel)
  have resolved : (Tree.build lateRequest (.diamond 0 1)).toOption.any
      (·.Resolved (.terrestrial 4) (.diamond 0 1)) = true := by decide +kernel
  have burst : (lateRun.logUntil 10 100).1.any (fun moment =>
      moment.event = .burst 0 ∧ moment.key.time = 10) = true := by decide +kernel
  have after : (lateRun.logUntil 10 100).2.queue.waiting.all (10 < ·.1.time) = true := by
    decide +kernel
  obtain ⟨moment, logged, facts⟩ := List.any_eq_true.1 burst
  refine ⟨_, _, course, flawless, ?_, by decide +kernel,
    (EventQueue.popUntil_eq_none _ _).2 (by simpa using after),
    ⟨moment, logged, of_decide_eq_true facts⟩, by decide +kernel, by decide +kernel⟩
  cases built : Tree.build lateRequest (.diamond 0 1) with
  | error error => simp [built, Except.toOption] at resolved
  | ok tree =>
    rw [built] at resolved
    exact ⟨tree, rfl, of_decide_eq_true resolved⟩

end Simulation
end Multicast
