import Multicast.Proofs.Simulation.Once
import Multicast.Proofs.Simulation.Ratio

/-!
Accounts. The counters of a request tell how many of its packets were sent and delivered. Main
statement: with route tables on one network, no destination of a request whose tree enters no node
twice receives a packet twice, so no more is delivered than is due.
-/

namespace Multicast
open Std

def Event.request? : Event → Option RequestId
  | .timer _ => none
  | .burst id => some id
  | .arrival packet _ => some packet.request

def Moment.deliveries {σ : Type} (moment : Moment σ) : List Delivery :=
  match moment.before.effects moment.key.node moment.event, moment.booking.delivery? with
  | .ok effects, some delivery => List.replicate (effects.countP (· = .deliver)) delivery
  | _, _ => []

namespace RefreshDriver
variable {σ : Type}

theorem ne_deliver_of_emitRouted (driver : RefreshDriver σ) (request : Request)
    (hopLimit sequence : Nat) (effects : List Effect)
    (emitted : driver.emitRouted request hopLimit sequence = .ok effects) (effect : Effect)
    (sent : effect ∈ effects) : effect ≠ .deliver := by
  unfold emitRouted at emitted
  split at emitted
  · cases emitted
  · cases emitted
    exact driver.ne_deliver_of_transmit _ _ _ effect sent
  · cases emitted
    simp at sent
    simp [sent]

theorem exists_sequence?_of_receiveRouted (driver : RefreshDriver σ) (node : NodeId)
    (packet : Packet) (isDestination : Bool) (effects : List Effect)
    (received : driver.receiveRouted node packet isDestination = .ok effects) :
    ∃ sequence, packet.sequence? = some sequence := by
  unfold receiveRouted at received
  unfold Packet.sequence?
  split at received
  · cases received
  · rename_i header decoded
    exact ⟨header.1.sequence, by rw [decoded]⟩

end RefreshDriver

namespace Simulation
variable {σ : Type}

/-- The packets of a request that an event delivers. -/
def taken (simulation : Simulation σ) (node : Option NodeId) (event : Event) (id : RequestId) : Nat :=
  match simulation.effects node event with
  | .ok effects => if event.request? = some id then effects.countP (· = .deliver) else 0
  | .error _ => 0

theorem requestStats_countSent (simulation : Simulation σ) (counted id : RequestId)
    (sequence : Nat) :
    (simulation.countSent counted sequence).requestStats[id]? = simulation.requestStats[id]?.map
      fun stats => { stats with sent := stats.sent + if counted = id then 1 else 0 } := by
  simp only [countSent, changeRequestStats, changeStats, ExtTreeMap.getElem?_modify,
    Std.compare_eq_iff_eq]
  by_cases same : counted = id
  · simp [same]
  · simp [same]

theorem requestStats_handle [SnapshotSource σ] (simulation : Simulation σ) (node : Option NodeId)
    (event : Event) (id : RequestId) :
    (simulation.handle node event).2.requestStats[id]? = simulation.requestStats[id]?.map
      fun stats => { stats with
        sent := stats.sent +
          if event = .burst id ∧ (simulation.driver.request? id).isSome then 1 else 0
        delivered := stats.delivered + simulation.taken node event id } := by
  have ways := simulation.ends_handle node event
  generalize (simulation.handle node event).1 = result at ways
  generalize (simulation.handle node event).2 = later at ways ⊢
  cases ways with
  | unrefreshed => simp [taken, Simulation.effects]
  | refreshed => simp [taken, Simulation.effects]
  | unbound => simp [taken, Simulation.effects]
  | unknown other found =>
    simp only [if_neg (simulation.not_burst_of_unknown other found id)]
    simp [taken, Simulation.effects, found]
  | unsent other request error found emit =>
    rw [requestStats_countSent]
    simp only [taken, simulation.effects_of_request? node other request found, emit,
      simulation.burst_iff_of_request? other request found id, Nat.add_zero]
  | sent other request effects found emit =>
    have applied := (simulation.countSent other (simulation.sent other)).applied_applyEffects other
      effects
    rw [requestStats_scheduleNext, applied.requestStats, requestStats_countSent, Option.map_map]
    simp only [taken, simulation.effects_of_request? node other request found, emit,
      simulation.burst_iff_of_request? other request found id, Event.request?, Option.some.injEq]
    rfl
  | stray packet interface nowhere =>
    subst nowhere
    simp [taken, Simulation.effects]
  | unreceived receiver packet interface error here receive =>
    subst here
    simp [taken, Simulation.effects, receive]
  | received receiver packet interface effects here receive =>
    subst here
    rw [(simulation.applied_applyEffects packet.request effects).requestStats]
    simp [taken, Simulation.effects, receive, Event.request?]

theorem countP_deliver_of_effects (simulation : Simulation σ)
    (routed : simulation.driver.config.forwarding = .routeTable) (node : Option NodeId) (time : Nat)
    (event : Event) (effects : List Effect) (happens : simulation.effects node event = .ok effects)
    (none : Booking.delivery? ⟨node, time, event⟩ = none) :
    effects.countP (· = .deliver) = 0 := by
  cases event with
  | timer timer =>
    cases happens
    rfl
  | burst id =>
    simp only [Simulation.effects] at happens
    split at happens
    · cases happens
    · rename_i request _
      unfold RefreshDriver.emit at happens
      rw [routed] at happens
      rw [List.countP_eq_zero]
      intro effect sent
      simpa using simulation.driver.ne_deliver_of_emitRouted request _ _ _ happens effect sent
  | arrival packet interface =>
    cases node with
    | none =>
      cases happens
      rfl
    | some node =>
      obtain ⟨_, _, _, received⟩ := simulation.driver.receive_eq_ok routed node packet effects happens
      obtain ⟨sequence, number⟩ :=
        simulation.driver.exists_sequence?_of_receiveRouted _ _ _ _ received
      simp [Booking.delivery?, number] at none

theorem countP_deliveries (moment : Moment σ)
    (routed : moment.before.driver.config.forwarding = .routeTable) (id : RequestId) :
    moment.deliveries.countP (·.request = id) =
      moment.before.taken moment.key.node moment.event id := by
  unfold Moment.deliveries taken
  cases happens : moment.before.effects moment.key.node moment.event with
  | error error => rfl
  | ok effects =>
    cases found : moment.booking.delivery? with
    | some delivery =>
      obtain ⟨packet, interface, arrives, _, same, _⟩ :=
        moment.booking.delivery?_eq_some delivery found
      have about : moment.event.request? = some delivery.request := by
        rw [← same]
        exact congrArg Event.request? arrives
      dsimp only
      rw [about, List.countP_replicate]
      simp
    | none =>
      have nothing := moment.before.countP_deliver_of_effects routed _ _ _ effects happens found
      dsimp only
      rw [nothing]
      simp

theorem accounts_of_course [SnapshotSource σ] (config : SimulationConfig) (source : σ)
    (roles : NodeRoles) (requests : List Request) (positions : BitPositions)
    (routed : config.refresh.forwarding = .routeTable)
    (distinct : requests.Pairwise fun one other => one.id ≠ other.id) (request : Request)
    (member : request ∈ requests) (log : List (Moment σ)) (simulation : Simulation σ)
    (course : (start config source roles requests positions).Course log simulation) :
    ∃ stats, simulation.requestStats[request.id]? = some stats ∧
      stats.destinations = request.destinations.size ∧
      stats.sent = simulation.sent request.id ∧
      stats.delivered = (log.flatMap Moment.deliveries).countP (·.request = request.id) := by
  induction course with
  | start =>
    exact ⟨_, addCounters_of_mem requests distinct ∅ request member, rfl, (sent_start ..).symm, rfl⟩
  | step log simulation later horizon key event queue result earlier _ _ handled ih =>
    obtain ⟨stats, found, destinations, sent, delivered⟩ := ih
    have setting := setting_of_course _ simulation log earlier
    have forwarding : (simulation.pop event queue).driver.config.forwarding = .routeTable :=
      (congrArg (·.1.forwarding) setting).trans routed
    have counted := countP_deliveries ⟨key, event, simulation.pop event queue, result, later⟩ forwarding
      request.id
    have after := (simulation.pop event queue).requestStats_handle key.node event request.id
    have number := (simulation.pop event queue).sent_handle key.node event request.id
    have kept : (simulation.pop event queue).requestStats[request.id]? = some stats := found
    have before : (simulation.pop event queue).sent request.id = simulation.sent request.id := rfl
    rw [handled] at after number
    rw [kept, Option.map_some] at after
    refine ⟨_, after, destinations, ?_, ?_⟩
    · rw [number, before, ← sent]
    · rw [List.flatMap_append, List.countP_append, ← delivered, List.flatMap_singleton, counted]
  | rest log simulation horizon _ _ ih => exact ih

section
variable (config : SimulationConfig) (roles : NodeRoles) (requests : List Request)
  (positions : BitPositions) (network : Snapshot)
  (routed : config.refresh.forwarding = .routeTable)
  (distinct : requests.Pairwise fun one other => one.id % 2 ^ 32 ≠ other.id % 2 ^ 32)
  (made : network.interfaces.Made) (request : Request) (member : request ∈ requests) (tree : Tree)
  (built : Tree.build request network = .ok tree) [SnapshotSource σ] (source : σ)
  (log : List (Moment σ)) (simulation : Simulation σ)
  (course : (start config source roles requests positions).Course log simulation)
  (shown : Shown network log)
include routed distinct made member built course shown

/-- A packet of a request that arrives is one that has been sent, and is taken at most once and only by
a destination. -/
theorem countP_deliver_of_course (moment : Moment σ) (logged : moment ∈ log) (effects : List Effect)
    (happens : moment.before.effects moment.key.node moment.event = .ok effects)
    (delivery : Delivery) (found : moment.booking.delivery? = some delivery)
    (about : delivery.request = request.id) :
    delivery.sequence.toNat < simulation.sent request.id ∧
      effects.countP (· = .deliver) ≤ if request.destinations.contains delivery.node then 1 else 0 := by
  obtain ⟨_, stands⟩ := stands_of_course config roles requests positions network routed distinct source
    log simulation course shown
  obtain ⟨packet, interface, arrives, located, same, number⟩ :=
    moment.booking.delivery?_eq_some delivery found
  obtain ⟨sequence, numbered, _, _, hopLimit, _, _, _, booked⟩ :=
    passes_of_course config roles requests positions network routed distinct source made request
      member tree built log simulation course shown moment.booking
      (List.mem_append_left _ (List.mem_map_of_mem logged)) packet interface arrives (same.trans about)
  cases arrives.symm.trans (congrArg Booking.event booked)
  have event : moment.event = _ := arrives
  have node : moment.key.node = _ := located
  rw [event, node] at happens
  rw [RefreshDriver.sequence?_routedPacket, Option.some.injEq] at number
  refine ⟨?_, (spreads_of_arrival config roles requests positions network routed distinct made
    moment.before (stands moment logged) request member tree built effects delivery.node hopLimit
    sequence _ happens).2⟩
  rw [← number, UInt64.toNat_ofNat_of_lt']
  · exact numbered
  · exact number_small_of_course config source roles requests positions log simulation course
      request.id sequence numbered

theorem placed_of_course (moment : Moment σ) (logged : moment ∈ log) :
    (moment.deliveries.filter (·.request = request.id)).Sublist
        (arrivals request.id [moment.booking]) ∧
      ∀ delivery ∈ moment.deliveries, delivery.request = request.id →
        delivery.sequence.toNat < simulation.sent request.id ∧
          delivery.node ∈ request.destinations := by
  unfold Moment.deliveries
  split
  · rename_i effects delivery happens found
    by_cases about : delivery.request = request.id
    · obtain ⟨numbered, count⟩ := countP_deliver_of_course config roles requests positions network routed
        distinct made request member tree built source log simulation course shown moment logged effects
        happens delivery found about
      have single : arrivals request.id [moment.booking] = List.replicate 1 delivery := by
        simp [arrivals, found, about]
      rw [single]
      split at count
      · rename_i inside
        refine ⟨List.filter_sublist.trans ((List.replicate_sublist_replicate delivery).2 count), ?_⟩
        rintro other listed _
        rw [List.eq_of_mem_replicate listed]
        exact ⟨numbered, ExtTreeSet.contains_iff_mem.1 inside⟩
      · rw [Nat.le_zero.1 count]
        exact ⟨List.nil_sublist _, by simp⟩
    · have other (count : Nat) : (List.replicate count delivery).filter (·.request = request.id) = [] := by
        simp [about]
      rw [other]
      refine ⟨List.nil_sublist _, fun listed member own => ?_⟩
      rw [(List.mem_replicate.1 member).2] at own
      exact absurd own about
  · exact ⟨List.nil_sublist _, by simp⟩

/-- No packet of a request is delivered twice at a node if the tree of the request enters none twice. -/
theorem nodup_deliveries_of_course (once : tree.EntersOnce) :
    ((log.flatMap Moment.deliveries).filter (·.request = request.id)).Nodup := by
  have delivers (part : List (Moment σ)) (within : ∀ moment ∈ part, moment ∈ log) :
      ((part.flatMap Moment.deliveries).filter (·.request = request.id)).Sublist
        (arrivals request.id (part.map Moment.booking)) := by
    induction part with
    | nil => exact List.nil_sublist _
    | cons moment rest ih =>
      have first := (placed_of_course config roles requests positions network routed distinct made
        request member tree built source log simulation course shown moment
        (within moment List.mem_cons_self)).1
      have later := ih fun other listed => within other (List.mem_cons_of_mem _ listed)
      rw [List.flatMap_cons, List.filter_append, List.map_cons]
      have both := first.append later
      rwa [← arrivals_append] at both
  have nodup := nodup_arrivals_of_course config roles requests positions network routed distinct made
    request member tree built once source log simulation course shown
  rw [occurrences, arrivals_append, List.nodup_append] at nodup
  exact nodup.1.sublist (delivers log fun _ listed => listed)

/-- With route tables on one network, take a request whose tree enters no node over two hops. Each node
of the tree but the source is entered over one hop, and the source over none. No destination receives a
packet twice, so no more is delivered than is due. -/
theorem routed_delivers_at_most_once (once : tree.EntersOnce) :
    (∀ node ∈ tree.nodes, node ≠ request.source → ∃! hop, hop ∈ tree.hops ∧ hop.receiver = node) ∧
      (∀ hop ∈ tree.hops, hop.receiver ≠ request.source) ∧
      ((log.flatMap Moment.deliveries).filter (·.request = request.id)).Nodup ∧
      ∃ stats, simulation.requestStats[request.id]? = some stats ∧
        stats.destinations = request.destinations.size ∧ stats.sent = simulation.sent request.id ∧
        stats.delivered = (log.flatMap Moment.deliveries).countP (·.request = request.id) ∧
        stats.delivered ≤ stats.sent * stats.destinations ∧
        (stats.sent < 2 ^ 53 → stats.destinations < 2 ^ 53 → stats.deliveryRatio ≤ 1.0) := by
  have nodup := nodup_deliveries_of_course config roles requests positions network routed distinct made
    request member tree built source log simulation course shown once
  obtain ⟨stats, found, destinations, sent, delivered⟩ := accounts_of_course config source roles
    requests positions routed (distinct.imp fun different same => different (by rw [same])) request
    member log simulation course
  have due : stats.delivered ≤ stats.sent * stats.destinations := by
    rw [delivered, sent, destinations, List.countP_eq_length_filter]
    refine Delivery.length_le _ request.id _ _ nodup fun delivery listed => ?_
    obtain ⟨delivered, own⟩ := List.mem_filter.1 listed
    have own := of_decide_eq_true own
    obtain ⟨moment, logged, delivered⟩ := List.mem_flatMap.1 delivered
    exact ⟨own, (placed_of_course config roles requests positions network routed distinct made request
      member tree built source log simulation course shown moment logged).2 delivery delivered own⟩
  refine ⟨?_, Tree.receiver_ne_source request network tree built, nodup, stats, found, destinations,
    sent, delivered, due, fun few few' => stats.deliveryRatio_le_one few few' due⟩
  intro node known away
  obtain ⟨hop, inside, enters⟩ := Tree.exists_hop_into request network tree built node known away
  exact ⟨hop, ⟨inside, enters⟩, fun other also =>
    once other also.1 hop inside (also.2.trans enters.symm)⟩

end

def steadyRun : Simulation SnapshotPlan :=
  start { refresh := { interval := 10, finish := 30 }, linkLatency := 3 } (.always (.diamond 0 1))
    (.terrestrial 4) [{ diamondSchedule[0] with targetRate := 1200000.0 }] .empty

theorem routed_delivers_at_most_once_diamond :
    ∃ log simulation, steadyRun.Course log simulation ∧ Flawless log ∧
      simulation.stats.refreshes = 3 ∧ Shown (.diamond 0 1) log ∧
      ((log.flatMap Moment.deliveries).filter (·.request = 4)).Nodup ∧
      ∃ stats, simulation.requestStats[4]? = some stats ∧ stats = ⟨2, 2, 4⟩ ∧
        stats.delivered ≤ stats.sent * stats.destinations ∧ stats.deliveryRatio ≤ 1.0 := by
  have course := course_logUntil steadyRun steadyRun [] .start 30 100 (by decide)
  have flawless : Flawless (steadyRun.logUntil 30 100).1 := flawless_of_all _ (by decide +kernel)
  have refreshes : (steadyRun.logUntil 30 100).2.stats.refreshes = 3 := by decide +kernel
  have counters : (steadyRun.logUntil 30 100).2.requestStats[4]? = some ⟨2, 2, 4⟩ := by
    decide +kernel
  have shown := shown_of_constant (.diamond 0 1) _ _ _ _ _ (SnapshotPlan.constant_always _) _ _ course
  have enters : (Tree.build { diamondSchedule[0] with targetRate := 1200000.0 }
      (.diamond 0 1)).toOption.any (·.EntersOnce) = true := by decide +kernel
  cases built : Tree.build { diamondSchedule[0] with targetRate := 1200000.0 } (.diamond 0 1) with
  | error error => simp [built, Except.toOption] at enters
  | ok tree =>
    rw [built] at enters
    obtain ⟨-, -, nodup, stats, found, -, -, -, due, ratio⟩ :=
      routed_delivers_at_most_once _ (.terrestrial 4) _ .empty (.diamond 0 1) rfl (by decide)
        (.insert _ _ _ _ (.insert _ _ _ _ (.insert _ _ _ _ (.insert _ _ _ _ (.insert _ _ _ _
          (.insert _ _ _ _ (.insert _ _ _ _ (.insert _ _ _ _ .empty)))))))) _ List.mem_cons_self tree
        built _ _ _ course shown (of_decide_eq_true enters)
    cases counters.symm.trans found
    exact ⟨_, _, course, flawless, refreshes, shown, nodup, _, found, rfl, due,
      ratio (by decide) (by decide)⟩

/-- The way from node 0 to node 2 goes straight through node 1, the way to node 4 through nodes 1, 3 and
2. -/
def detour : Snapshot :=
  { ((((Snapshot.empty 0 5).addLink 0 1 1 1).addLink 1 2 2 1 |>.addLink 1 3 3 1).addLink 3 2 2
        2).addLink 2 3 4 1 with
    nextHops := (((((NextHops.empty.set 0 2 [1]).set 1 2 [2]).set 0 4 [1]).set 1 4 [3]).set 3 4
      [2]).set 2 4 [4] }

def detourRequest : Request := ⟨0, 0, (∅ : NodeSet).insertMany [2, 4], 1.0, 0, 1, "", ""⟩

def detourRun : Simulation SnapshotPlan :=
  start { refresh := { finish := 10, forceStatic := true }, linkLatency := 1 } (.always detour)
    (.terrestrial 5) [detourRequest] .empty

/-- A tree may enter a node twice: two paths that part come together again, and whatever comes over
either is sent on and delivered. A count of more than 53 binary digits makes the ratio greater than one
even where no more is delivered than is due. -/
theorem detour_delivers_twice :
    ∃ log simulation tree, detourRun.Course log simulation ∧ Flawless log ∧ Shown detour log ∧
      Tree.build detourRequest detour = .ok tree ∧ ¬tree.EntersOnce ∧
      ¬((log.flatMap Moment.deliveries).filter (·.request = 0)).Nodup ∧
      ∃ stats, simulation.requestStats[0]? = some stats ∧
        stats.sent * stats.destinations < stats.delivered ∧ ¬stats.deliveryRatio ≤ 1.0 ∧
        ∃ stats : RequestStats, stats.delivered ≤ stats.sent * stats.destinations ∧
          ¬stats.deliveryRatio ≤ 1.0 := by
  have course := course_logUntil detourRun detourRun [] .start 10 100 (by decide)
  have flawless : Flawless (detourRun.logUntil 10 100).1 := flawless_of_all _ (by decide +kernel)
  have shown := shown_of_constant detour _ _ _ _ _ (SnapshotPlan.constant_always _) _ _ course
  have counters : (detourRun.logUntil 10 100).2.requestStats[0]? = some ⟨2, 1, 4⟩ := by
    decide +kernel
  have twice : ¬(((detourRun.logUntil 10 100).1.flatMap Moment.deliveries).filter
      (·.request = 0)).Nodup := by decide +kernel
  have enters : (Tree.build detourRequest detour).toOption.any (¬·.EntersOnce) = true := by
    decide +kernel
  cases built : Tree.build detourRequest detour with
  | error error => simp [built, Except.toOption] at enters
  | ok tree =>
    rw [built] at enters
    exact ⟨_, _, tree, course, flawless, shown, rfl, of_decide_eq_true enters, twice, _, counters,
      by decide, by decide +kernel, ⟨3, 2 ^ 53 + 1, 3 * (2 ^ 53 + 1)⟩, by decide, by decide +kernel⟩

end Simulation
end Multicast
