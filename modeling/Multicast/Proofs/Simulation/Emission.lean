import Multicast.Proofs.Refresh.Network
import Multicast.Proofs.Simulation.Passage
import Multicast.Proofs.Simulation.Refreshes
import Multicast.Proofs.Simulation.Tally

/-!
Emissions. A source sends from the start of a request until its finish, and a refresh routes every
request whose time meets its window. Main statement: in a run without errors with route tables, every
burst finds the route of its request's tree in the epoch of the burst, so nothing but a packet that
arrives is ever dropped for want of a route.
-/

namespace Multicast
open Std

namespace Request

/-- A packet may leave at the start of a request of some duration, and later before its finish. -/
structure DueAt (request : Request) (time : Nat) : Prop where
  lasts : request.duration ≠ 0
  begun : request.start ≤ time
  unfinished : time = request.start ∨ time < request.finish

theorem DueAt.lt_finish (request : Request) (time opening : Nat) (due : request.DueAt time)
    (opened : opening ≤ time) (early : opening < lastInstant) : opening < request.finish := by
  have lasts := due.lasts
  have unfinished := due.unfinished
  unfold finish instantAfter at unfinished ⊢
  omega

end Request

namespace RefreshDriver
variable {σ : Type}

theorem ne_noRoute_of_transmit (driver : RefreshDriver σ) (node : NodeId) (interface : InterfaceId)
    (packet : Packet) (effect : Effect) (sent : effect ∈ driver.transmit node interface packet) :
    effect ≠ .noRoute := by
  rintro rfl
  unfold transmit at sent
  split at sent
  · simp at sent
  · simp at sent

/-- The driver is in the state of an epoch and sends the packets of a request out of its source on
the one interface of the source in the tree of that epoch. -/
structure Routes (driver : RefreshDriver σ) (request : Request) (epoch : Nat) (snapshot : Snapshot)
    (tree : Tree) : Prop where
  epoch : driver.lastEpoch = some epoch
  held : driver.snapshot = some snapshot
  built : Tree.build request snapshot = .ok tree
  egress (interface : InterfaceId) :
    interface ∈ Tree.outputsAt tree.nodes request.source ↔ interface = tree.origin.interface
  outbound (origin : Origin) :
    driver.routing.arbitrate request.source request.source origin (request.group .routeBase) =
      .ok (.outbound tree.origin.interface)

theorem routes_of_refresh [SnapshotSource σ] (driver later : RefreshDriver σ) (epoch : Nat)
    (outcome : RefreshOutcome) (timers : List TimerRequest)
    (routed : driver.config.forwarding = .routeTable)
    (separate : driver.requests.Pairwise Request.Separate)
    (succeeded : driver.refresh epoch = (.ok (outcome, timers), later)) (request : Request)
    (member : request ∈ driver.requests)
    (active : request.activeDuring epoch (driver.windowEnd epoch) = true) :
    ∃ snapshot tree, (SnapshotSource.load driver.source epoch).1 = .ok snapshot ∧
      later.Routes request epoch snapshot tree := by
  obtain ⟨snapshot, load, held, decides⟩ :=
    driver.decides_of_refresh later epoch outcome timers routed separate succeeded
  obtain ⟨tree, built, inside, decided⟩ := (decides request member).1 active
  obtain ⟨_, _, _, _, _, last, _⟩ :=
    driver.exists_snapshot_of_refresh later epoch outcome timers succeeded
  have known := (Tree.mem_nodes request snapshot tree built request.source).2 (.inl rfl)
  refine ⟨snapshot, tree, load, last, held, built, request.outputsAt_source snapshot tree built, ?_⟩
  intro origin
  rw [decided request.source (inside request.source known) origin,
    Tree.decisionAt_source request snapshot tree built]

theorem Routes.exists_effects (driver : RefreshDriver σ) (request : Request) (epoch : Nat)
    (snapshot : Snapshot) (tree : Tree) (routes : driver.Routes request epoch snapshot tree)
    (hopLimit sequence : Nat) :
    ∃ effects, driver.emitRouted request hopLimit sequence = .ok effects ∧
      effects.countP (· = .noRoute) = 0 := by
  have outbound := routes.outbound ⟨request.source, noInterface⟩
  refine ⟨driver.transmit request.source tree.origin.interface
    (routedPacket request hopLimit sequence tree.origin.interface), ?_, ?_⟩
  · unfold emitRouted
    rw [outbound]
  · rw [List.countP_eq_zero]
    intro effect sent
    simpa using driver.ne_noRoute_of_transmit _ _ _ effect sent

end RefreshDriver

theorem Moment.Served.active {σ : Type} (config : RefreshConfig) (log : List (Moment σ))
    (moment : Moment σ) (index : Nat) (served : moment.Served config log index)
    (driver : RefreshDriver σ) (set : driver.config = config) (request : Request)
    (starts : request.start < config.finishInstant) (due : request.DueAt moment.key.time) :
    request.activeDuring (index * config.interval) (driver.windowEnd (index * config.interval)) =
      true := by
  have finish : config.finishInstant ≤ lastInstant := Nat.min_le_right _ _
  have running : index * config.interval < request.finish := by
    apply due.lt_finish request _ _ served.past
    cases served.due with
    | inl first =>
      rw [first, Nat.zero_mul]
      decide
    | inr dynamic => exact Nat.lt_of_lt_of_le dynamic.2 finish
  have started : request.start < driver.windowEnd (index * config.interval) := by
    unfold RefreshDriver.windowEnd
    rw [set]
    split
    · exact starts
    · rename_i moving
      have dynamic : config.forceStatic = false := by simpa using moving
      -- A request that starts after the window would be met by a later refresh.
      have before : request.start < (index + 1) * config.interval := by
        by_contra after
        have next : config.Due (index + 1) := .inr ⟨dynamic, by omega⟩
        have reached : (index + 1) * config.interval ≤ moment.key.time := by
          have begun := due.begun
          omega
        have := served.latest (index + 1) next reached
        omega
      rw [Nat.succ_mul] at before
      unfold instantAfter
      omega
  unfold Request.activeDuring
  rw [Bool.and_eq_true, decide_eq_true_eq, decide_eq_true_eq]
  exact ⟨started, running⟩

namespace Simulation
variable {σ : Type}

theorem time_of_burst_sequel [SnapshotSource σ] (simulation : Simulation σ) (id : RequestId)
    (booking : Booking) (sequel : booking ∈ simulation.sequels (.burst id)) :
    ∃ request, simulation.driver.request? id = some request ∧
      booking.time = simulation.now + request.packetGap ∧ booking.time < request.finish := by
  unfold sequels at sequel
  cases found : simulation.driver.request? id with
  | none => simp [found] at sequel
  | some request =>
    simp only [found, Option.map_some, Option.getD_some, nextBurst] at sequel
    split at sequel
    · rename_i early
      obtain rfl := List.mem_singleton.1 sequel
      exact ⟨request, rfl, rfl, early⟩
    · cases sequel

section
variable [SnapshotSource σ] (config : SimulationConfig) (source : σ) (roles : NodeRoles)
  (requests : List Request) (positions : BitPositions)

theorem dueAt_of_burst (distinct : requests.Pairwise fun one other => one.id ≠ other.id)
    (log : List (Moment σ)) (simulation : Simulation σ)
    (course : (start config source roles requests positions).Course log simulation)
    (booking : Booking) (listed : booking ∈ occurrences log simulation) (id : RequestId)
    (burst : booking.event = .burst id) :
    ∃ request ∈ requests, request.id = id ∧ request.DueAt booking.time := by
  induction course generalizing booking with
  | start =>
    have first := (booked_start config source roles requests positions).mem_iff.1 listed
    cases List.mem_cons.1 first with
    | inl refresh =>
      rw [refresh] at burst
      cases burst
    | inr bursts =>
      obtain ⟨request, chosen, rfl⟩ := List.mem_map.1 bursts
      obtain ⟨member, lasts⟩ := List.mem_filter.1 chosen
      cases burst
      exact ⟨request, member, rfl, of_decide_eq_true lasts, Nat.le_refl _, .inl rfl⟩
  | step log simulation later horizon key event queue result earlier _ popped handled ih =>
    obtain ⟨perm, handling⟩ := occurrences_step config source roles requests positions log simulation
      later earlier horizon key event queue result popped handled
    cases List.mem_append.1 (perm.mem_iff.1 listed) with
    | inr old => exact ih booking old burst
    | inl fresh =>
      cases copy_or_sequel_of_mem_bookings _ _ _ booking fresh with
      | inl copied =>
        obtain ⟨_, _, _, _, _, _, same⟩ := copied
        rw [same] at burst
        cases burst
      | inr sequel =>
        cases event_of_sequels _ _ booking sequel with
        | inl refresh =>
          obtain ⟨_, _, _, timer⟩ := refresh
          cases timer.symm.trans burst
        | inr again =>
          obtain ⟨other, same, next⟩ := again
          cases next.symm.trans burst
          subst same
          obtain ⟨request, member, named, due⟩ := ih _ handling rfl
          obtain ⟨known, found, time, early⟩ := time_of_burst_sequel _ id booking sequel
          have setting := setting_of_course _ simulation log earlier
          obtain ⟨inside, own⟩ := RefreshDriver.request?_eq_some _ id known found
          have requests_eq : simulation.driver.requests = requests :=
            congrArg (fun setting => setting.2.2.1) setting
          have member' : known ∈ requests := requests_eq ▸ inside
          obtain rfl := Request.eq_of_id requests distinct known request member' member
            (own.trans named.symm)
          have now : (simulation.pop (.burst id) queue).now = key.time :=
            (simulation.queue.popped_of_popUntil queue horizon key _ popped).now
          have begun := due.begun
          refine ⟨known, member, named, due.lasts, ?_, .inr early⟩
          rw [time, now]
          exact Nat.le_add_right_of_le begun
  | rest log simulation horizon _ _ ih => exact ih booking listed burst

end

/-! ## Drops -/

theorem droppedNoRoute_handle [SnapshotSource σ] (simulation : Simulation σ) (node : Option NodeId)
    (event : Event) :
    (simulation.handle node event).2.stats.droppedNoRoute = simulation.stats.droppedNoRoute +
      match simulation.effects node event with
      | .ok effects => effects.countP (· = .noRoute)
      | .error _ => 0 := by
  rw [stats_handle, tally, Stats.after, happenings]
  cases simulation.effects node event with
  | ok effects => rfl
  | error error => rfl

/-! ## Runs -/

/-- A state in force has a route out of the source of every request that is active in its window. -/
theorem InForce.routes [SnapshotSource σ] (log : List (Moment σ))
    (proper : ∀ moment ∈ log, moment.Proper) (flawless : Flawless log) (simulation : Simulation σ)
    (time : Nat) (inForce : simulation.InForce log time)
    (routed : simulation.driver.config.forwarding = .routeTable)
    (separate : simulation.driver.requests.Pairwise Request.Separate) (request : Request)
    (member : request ∈ simulation.driver.requests)
    (active : request.activeDuring time (simulation.driver.windowEnd time) = true) :
    ∃ snapshot tree, (∃ source, (SnapshotSource.load (σ := σ) source time).1 = .ok snapshot) ∧
      simulation.driver.Routes request time snapshot tree := by
  obtain ⟨driver, outcome, timers, later, succeeds, setting, _, same⟩ :=
    inForce.exists_refresh log proper flawless simulation time
  have config : driver.config = simulation.driver.config := congrArg Prod.fst setting
  have requests : driver.requests = simulation.driver.requests :=
    congrArg (fun setting => setting.2.2.1) setting
  have window : driver.windowEnd time = simulation.driver.windowEnd time := by
    unfold RefreshDriver.windowEnd
    rw [config]
  rw [← config] at routed
  rw [← requests] at separate member
  rw [← window] at active
  obtain ⟨snapshot, tree, load, routes⟩ := driver.routes_of_refresh later time outcome timers routed
    separate succeeds request member active
  refine ⟨snapshot, tree, ⟨driver.source, load⟩, ?_⟩
  rw [same]
  exact ⟨routes.epoch, routes.held, routes.built, routes.egress, routes.outbound⟩

theorem droppedNoRoute_of_routes [SnapshotSource σ] (simulation : Simulation σ)
    (routed : simulation.driver.config.forwarding = .routeTable) (node : Option NodeId)
    (id : RequestId) (request : Request) (found : simulation.driver.request? id = some request)
    (epoch : Nat) (snapshot : Snapshot) (tree : Tree)
    (routes : simulation.driver.Routes request epoch snapshot tree) :
    (simulation.handle node (.burst id)).2.stats.droppedNoRoute =
      simulation.stats.droppedNoRoute := by
  obtain ⟨effects, emitted, none⟩ := routes.exists_effects _ _ _ _ _ simulation.config.hopLimit
    (simulation.sent id)
  have happens : simulation.effects node (.burst id) = .ok effects := by
    rw [simulation.effects_of_request? node id request found, RefreshDriver.emit, routed]
    exact emitted
  rw [droppedNoRoute_handle, happens]
  exact congrArg _ none

section
variable [SnapshotSource σ] (config : SimulationConfig) (source : σ) (roles : NodeRoles)
  (requests : List Request) (positions : BitPositions)
  (routed : config.refresh.forwarding = .routeTable)
  (distinct : requests.Pairwise fun one other => one.id % 2 ^ 32 ≠ other.id % 2 ^ 32)
  (starts : ∀ request ∈ requests, request.start < config.refresh.finishInstant)
  (log : List (Moment σ)) (simulation : Simulation σ)
  (course : (start config source roles requests positions).Course log simulation)
  (flawless : Flawless log)
include routed distinct starts course flawless

theorem routes_of_burst (moment : Moment σ) (logged : moment ∈ log) (id : RequestId)
    (burst : moment.event = .burst id) :
    ∃ request ∈ requests, request.id = id ∧ moment.before.driver.request? id = some request ∧
      ∃ index, moment.Served config.refresh log index ∧ ∃ snapshot tree,
        (∃ source, (SnapshotSource.load (σ := σ) source (index * config.refresh.interval)).1 =
          .ok snapshot) ∧
        moment.before.driver.Routes request (index * config.refresh.interval) snapshot tree := by
  have ordered := (gains_start config source roles requests positions).ordered
  obtain ⟨_, proper⟩ := ordered_of_course _ simulation log ordered course
  obtain ⟨_, paced⟩ := paced_of_course config source roles requests positions log simulation course
    flawless
  have different : requests.Pairwise fun one other => one.id ≠ other.id :=
    distinct.imp fun different same => different (by rw [same])
  have setting := setting_of_moment _ simulation log course moment logged
  have set : moment.before.driver.config = config.refresh := congrArg Prod.fst setting
  have known : moment.before.driver.requests = requests :=
    congrArg (fun setting => setting.2.2.1) setting
  obtain ⟨request, member, named, due⟩ := dueAt_of_burst config source roles requests positions
    different log simulation course moment.booking
    (List.mem_append_left _ (List.mem_map_of_mem logged)) id burst
  obtain ⟨index, _, served⟩ := paced.served moment logged (by rw [burst]; exact .inr rfl)
  have active := served.active config.refresh log moment index moment.before.driver set request
    (starts request member) due
  rw [← known] at member different distinct
  have separate : moment.before.driver.requests.Pairwise Request.Separate :=
    distinct.imp fun apart => Request.separate_of_ids _ _ apart
  have found := moment.before.driver.request?_of_mem different request member
  have table : moment.before.driver.config.forwarding = .routeTable := by
    rw [set]
    exact routed
  have routes := served.inForce.routes log proper flawless moment.before
    (index * config.refresh.interval) table separate request member active
  exact ⟨request, known ▸ member, named, named ▸ found, index, served, routes⟩

/-- With route tables, take requests that start before the finish and before the last instant, and a run
without errors. Every burst finds the route out of its source, on the one interface of the source in
the tree of the epoch of the last refresh that is due by then. So only an arrival drops a packet for
want of a route. -/
theorem outbound_of_course :
    (∀ moment ∈ log, ∀ id, moment.event = .burst id → ∃ request ∈ requests, request.id = id ∧
        ∃ index, moment.Served config.refresh log index ∧ ∃ snapshot tree,
          (∃ source, (SnapshotSource.load (σ := σ) source (index * config.refresh.interval)).1 =
            .ok snapshot) ∧
          moment.before.driver.Routes request (index * config.refresh.interval) snapshot tree) ∧
      ∀ moment ∈ log,
        moment.after.stats.droppedNoRoute ≠ moment.before.stats.droppedNoRoute →
          ∃ packet interface, moment.event = .arrival packet interface := by
  have bursts := routes_of_burst config source roles requests positions routed distinct starts log
    simulation course flawless
  constructor
  · intro moment logged id burst
    obtain ⟨request, member, named, _, routes⟩ := bursts moment logged id burst
    exact ⟨request, member, named, routes⟩
  · intro moment logged changed
    have ordered := (gains_start config source roles requests positions).ordered
    have handled := ((ordered_of_course _ simulation log ordered course).2 moment logged).handled
    have after : (moment.before.handle moment.key.node moment.event).2 = moment.after := by
      rw [handled]
    rw [← after] at changed
    cases event : moment.event with
    | timer timer =>
      rw [event, droppedNoRoute_handle] at changed
      exact absurd rfl changed
    | burst id =>
      obtain ⟨request, _, _, found, index, _, snapshot, tree, _, routes⟩ :=
        bursts moment logged id event
      have set : moment.before.driver.config = config.refresh :=
        congrArg Prod.fst (setting_of_moment _ simulation log course moment logged)
      have table : moment.before.driver.config.forwarding = .routeTable := by
        rw [set]
        exact routed
      rw [event] at changed
      exact absurd (moment.before.droppedNoRoute_of_routes table _ id request found _ snapshot tree
        routes) changed
    | arrival packet interface => exact ⟨packet, interface, rfl⟩

end

def pulse : Request := ⟨4, 0, (∅ : NodeSet).insert 3, 1200000.0, 10, 15, "", ""⟩

def pulseRun : Simulation SnapshotPlan :=
  start { refresh := { interval := 10, finish := 30 }, linkLatency := 7 } (.diamond 10)
    (.terrestrial 4) [pulse] .empty

/-- A packet that leaves at the time of a refresh finds the route that this refresh has put in
place. -/
theorem outbound_of_course_pulse :
    ∃ log simulation, pulseRun.Course log simulation ∧ Flawless log ∧
      (log.filter (·.event = .burst 4)).map (·.key.time) = [10, 20] ∧
      ∀ moment ∈ log, moment.event = .burst 4 →
        (∃ snapshot tree, moment.before.driver.Routes pulse moment.key.time snapshot tree) ∧
        moment.after.stats.droppedNoRoute = moment.before.stats.droppedNoRoute := by
  have course := course_logUntil pulseRun pulseRun [] .start 30 100 (by decide)
  have flawless : Flawless (pulseRun.logUntil 30 100).1 := flawless_of_all _ (by decide +kernel)
  have times : ((pulseRun.logUntil 30 100).1.filter (·.event = .burst 4)).map (·.key.time) =
      [10, 20] := by decide +kernel
  obtain ⟨bursts, drops⟩ := outbound_of_course _ (.diamond 10 : SnapshotPlan) (.terrestrial 4) [pulse] _
    rfl (by decide) (by decide) _ _ course flawless
  refine ⟨_, _, course, flawless, times, ?_⟩
  intro moment logged burst
  constructor
  · obtain ⟨request, member, _, index, served, snapshot, tree, _, routes⟩ :=
      bursts moment logged 4 burst
    obtain rfl := List.mem_singleton.1 member
    have time : moment.key.time ∈ [10, 20] := by
      rw [← times]
      exact List.mem_map_of_mem (List.mem_filter.2 ⟨logged, decide_eq_true burst⟩)
    have past : index * 10 ≤ moment.key.time := served.past
    have last : index * 10 = moment.key.time := by
      cases List.mem_cons.1 time with
      | inl ten =>
        have latest : 1 ≤ index := served.latest 1 (by decide) (by rw [ten]; decide)
        omega
      | inr twenty =>
        obtain twenty := List.mem_singleton.1 twenty
        have latest : 2 ≤ index := served.latest 2 (by decide) (by rw [twenty]; decide)
        omega
    exact ⟨snapshot, tree, last ▸ routes⟩
  · by_contra changed
    obtain ⟨_, _, arrives⟩ := drops moment logged changed
    cases burst.symm.trans arrives

/-- A request of some duration that starts at the last instant, so that it has no instant before its
finish. -/
def lastRequest : Request := ⟨0, 0, (∅ : NodeSet).insertMany [1], 1.0, lastInstant, 5, "", ""⟩

def longRun : Simulation SnapshotPlan :=
  start { refresh := { finish := UInt64.size, forceStatic := true } } (.always (.diamond 0 1))
    (.terrestrial 4) [lastRequest] .empty

/-- The request starts before the finish, but the window of the one refresh ends with the last instant
that it starts at, and so its packet has no route. -/
theorem last_is_not_outbound :
    lastRequest.start < longRun.config.refresh.finish ∧
      ∃ log simulation, longRun.Course log simulation ∧ Flawless log ∧
        simulation.queue.popUntil longRun.config.refresh.finish = none ∧
        ∃ moment ∈ log, moment.event = .burst 0 ∧
          moment.before.driver.routing.arbitrate 0 0 ⟨0, noInterface⟩ (lastRequest.group .routeBase) =
            .ok .noRoute ∧
          moment.after.stats.droppedNoRoute = moment.before.stats.droppedNoRoute + 1 := by
  have course := course_logUntil longRun longRun [] .start UInt64.size 100 (by decide)
  have flawless : Flawless (longRun.logUntil UInt64.size 100).1 := flawless_of_all _ (by decide +kernel)
  have dropped : (longRun.logUntil UInt64.size 100).1.any (fun moment => moment.event = .burst 0 ∧
      moment.before.driver.routing.arbitrate 0 0 ⟨0, noInterface⟩ (lastRequest.group .routeBase) =
        .ok .noRoute ∧
      moment.after.stats.droppedNoRoute = moment.before.stats.droppedNoRoute + 1) = true := by
    decide +kernel
  obtain ⟨moment, logged, facts⟩ := List.any_eq_true.1 dropped
  refine ⟨by decide, _, _, course, flawless, ?_, moment, logged, of_decide_eq_true facts⟩
  exact (EventQueue.popUntil_eq_none _ _).2 (by decide +kernel)

end Simulation
end Multicast
