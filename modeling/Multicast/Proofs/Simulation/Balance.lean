import Multicast.Proofs.Simulation.Delivery
import Multicast.Proofs.Simulation.Tally
import Multicast.Proofs.Table

/-!
Balances. The counters of the requests add up to those of the run, and every copy that was sent has
arrived or waits in the queue. Main statement: the counters of a run account for every event that was
handled, whether it succeeded or failed.
-/

namespace Multicast
open Std

namespace PriorityCounts

theorem total_count (counts : PriorityCounts) (priority : Priority) :
    total (counts.count priority).toList = total counts.toList + 1 := by
  cases priority with
  | _ =>
    simp only [count, toList, total_cons, total_nil]
    omega

def ofEvents (events : List Event) : PriorityCounts where
  timer := events.countP (·.isTimer)
  network := events.countP (·.isArrival)
  traffic := events.countP (·.isBurst)

theorem count_ofEvents (events : List Event) (event : Event) :
    (ofEvents events).count event.priority = ofEvents (events ++ [event]) := by
  unfold ofEvents
  simp only [List.countP_append, List.countP_singleton]
  cases event with
  | _ => rfl

end PriorityCounts

namespace RefreshDriver
variable {σ : Type}

theorem isSome_request? (driver : RefreshDriver σ) (request : Request)
    (member : request ∈ driver.requests) : (driver.request? request.id).isSome = true := by
  rw [Option.isSome_iff_ne_none, request?, ne_eq, List.getLast?_eq_none_iff]
  exact List.ne_nil_of_mem (List.mem_filter.2 ⟨member, decide_eq_true rfl⟩)

theorem exists_request_of_receive (driver : RefreshDriver σ) (node : NodeId)
    (packet : Packet) (effects : List Effect) (received : driver.receive node packet = .ok effects) :
    ∃ request ∈ driver.requests, request.id = packet.request := by
  unfold receive at received
  split at received
  · cases received
  · rename_i request found
    exact ⟨request, driver.request?_eq_some _ request found⟩

end RefreshDriver

namespace Simulation
variable {σ : Type}

/-- Every request has counters, and these add up to the counters of the run. -/
structure AddsUp (simulation : Simulation σ) : Prop where
  counted : ∀ request ∈ simulation.driver.requests,
    ∃ stats, simulation.requestStats[request.id]? = some stats
  sent : tableTotal RequestStats.sent simulation.requestStats = simulation.stats.packetsSent
  delivered :
    tableTotal RequestStats.delivered simulation.requestStats = simulation.stats.packetsDelivered

section
variable (simulation : Simulation σ) (addsUp : simulation.AddsUp)
include addsUp

theorem AddsUp.change (later : Simulation σ) (request : Request)
    (listed : request ∈ simulation.driver.requests) (change : RequestStats → RequestStats)
    (requests : later.driver.requests = simulation.driver.requests)
    (changed : later.requestStats = simulation.requestStats.modify request.id change)
    (sent : ∀ stats, (change stats).sent + simulation.stats.packetsSent =
      stats.sent + later.stats.packetsSent)
    (delivered : ∀ stats, (change stats).delivered + simulation.stats.packetsDelivered =
      stats.delivered + later.stats.packetsDelivered) : later.AddsUp := by
  obtain ⟨counted, ownSent, ownDelivered⟩ := addsUp
  obtain ⟨stats, found⟩ := counted request listed
  have totalSent := tableTotal_modify RequestStats.sent _ _ stats found change
  have totalDelivered := tableTotal_modify RequestStats.delivered _ _ stats found change
  specialize sent stats
  specialize delivered stats
  rw [← changed] at totalSent totalDelivered
  refine ⟨fun other member => ?_, by omega, by omega⟩
  obtain ⟨before, known⟩ := counted other (requests ▸ member)
  rw [changed, ExtTreeMap.getElem?_modify, found, known]
  split
  · exact ⟨change stats, rfl⟩
  · exact ⟨before, rfl⟩

theorem AddsUp.of_eq (later : Simulation σ)
    (requests : later.driver.requests = simulation.driver.requests)
    (same : later.requestStats = simulation.requestStats)
    (sent : later.stats.packetsSent = simulation.stats.packetsSent)
    (delivered : later.stats.packetsDelivered = simulation.stats.packetsDelivered) :
    later.AddsUp := by
  obtain ⟨counted, ownSent, ownDelivered⟩ := addsUp
  refine ⟨?_, ?_, ?_⟩
  · rwa [requests, same]
  · rw [same, sent, ownSent]
  · rw [same, delivered, ownDelivered]

theorem AddsUp.countSent (request : Request) (listed : request ∈ simulation.driver.requests)
    (sequence : Nat) : (simulation.countSent request.id sequence).AddsUp := by
  refine AddsUp.change simulation addsUp _ request listed
    (fun stats => { stats with sent := stats.sent + 1 }) rfl rfl (fun stats => ?_) fun stats => rfl
  exact Nat.add_right_comm stats.sent 1 simulation.stats.packetsSent

theorem AddsUp.applyEffect (request : Request) (listed : request ∈ simulation.driver.requests)
    (effect : Effect) : (applyEffect request.id simulation effect).AddsUp := by
  cases effect with
  | deliver =>
    refine AddsUp.change simulation addsUp _ request listed
      (fun stats => { stats with delivered := stats.delivered + 1 }) rfl rfl (fun stats => rfl)
      fun stats => ?_
    exact Nat.add_right_comm stats.delivered 1 simulation.stats.packetsDelivered
  | copy => exact AddsUp.of_eq simulation addsUp _ rfl rfl rfl rfl
  | noRoute => exact AddsUp.of_eq simulation addsUp _ rfl rfl rfl rfl
  | expired => exact AddsUp.of_eq simulation addsUp _ rfl rfl rfl rfl
  | unresolved => exact AddsUp.of_eq simulation addsUp _ rfl rfl rfl rfl

theorem AddsUp.applyEffects (request : Request) (listed : request ∈ simulation.driver.requests)
    (effects : List Effect) : (simulation.applyEffects request.id effects).AddsUp := by
  induction effects generalizing simulation with
  | nil => exact addsUp
  | cons effect rest ih =>
    refine ih _ (AddsUp.applyEffect simulation addsUp request listed effect) ?_
    rwa [(simulation.applied_applyEffect request.id effect).driver]

theorem AddsUp.handle [SnapshotSource σ] (node : Option NodeId) (event : Event) :
    (simulation.handle node event).2.AddsUp := by
  have requests : (simulation.handle node event).2.driver.requests = simulation.driver.requests :=
    congrArg (fun setting => setting.2.2.1) (simulation.setting_handle node event)
  have ways := simulation.ends_handle node event
  generalize (simulation.handle node event).1 = result at ways
  generalize (simulation.handle node event).2 = later at ways requests ⊢
  cases ways with
  | unrefreshed => exact AddsUp.of_eq simulation addsUp _ requests rfl rfl rfl
  | refreshed => exact AddsUp.of_eq simulation addsUp _ requests rfl rfl rfl
  | unbound => exact AddsUp.of_eq simulation addsUp _ requests rfl rfl rfl
  | unknown => exact addsUp
  | unsent id request error found =>
    obtain ⟨listed, rfl⟩ := simulation.driver.request?_eq_some id request found
    exact AddsUp.countSent simulation addsUp request listed _
  | sent id request effects found =>
    obtain ⟨listed, rfl⟩ := simulation.driver.request?_eq_some id request found
    have counted := AddsUp.countSent simulation addsUp request listed (simulation.sent request.id)
    have applied := AddsUp.applyEffects _ counted request listed effects
    exact AddsUp.of_eq _ applied _ (by rw [driver_scheduleNext]) (requestStats_scheduleNext _ _)
      (by rw [stats_scheduleNext]) (by rw [stats_scheduleNext])
  | stray => exact addsUp
  | unreceived => exact addsUp
  | received receiver packet interface effects here receive =>
    obtain ⟨request, listed, same⟩ :=
      simulation.driver.exists_request_of_receive receiver packet effects receive
    rw [← same]
    exact AddsUp.applyEffects simulation addsUp request listed effects

end

theorem counters_of_addCounters (requests : List Request)
    (table : ExtTreeMap RequestId RequestStats)
    (zero : ∀ (id : RequestId) (stats : RequestStats), table[id]? = some stats →
      stats.sent = 0 ∧ stats.delivered = 0) :
    (∀ (id : RequestId) (stats : RequestStats),
      (requests.foldl addCounters table)[id]? = some stats →
        stats.sent = 0 ∧ stats.delivered = 0) ∧
    ∀ id : RequestId, ((∃ stats, table[id]? = some stats) ∨ ∃ request ∈ requests, request.id = id) →
      ∃ stats, (requests.foldl addCounters table)[id]? = some stats := by
  induction requests generalizing table with
  | nil => exact ⟨zero, by simp⟩
  | cons request rest ih =>
    have fresh (id : RequestId) (stats : RequestStats)
        (found : (addCounters table request)[id]? = some stats) :
        stats.sent = 0 ∧ stats.delivered = 0 := by
      unfold addCounters at found
      rw [ExtTreeMap.getElem?_insert] at found
      split at found
      · cases found
        exact ⟨rfl, rfl⟩
      · exact zero id stats found
    obtain ⟨zeros, known⟩ := ih (addCounters table request) fresh
    refine ⟨zeros, fun id listed => known id ?_⟩
    unfold addCounters
    rw [ExtTreeMap.getElem?_insert]
    rcases listed with before | ⟨other, member, rfl⟩
    · left
      split
      · exact ⟨_, rfl⟩
      · exact before
    · rcases List.mem_cons.1 member with rfl | later
      · exact .inl ⟨_, if_pos compare_self⟩
      · exact .inr ⟨other, later, rfl⟩

theorem addsUp_start (config : SimulationConfig) (source : σ) (roles : NodeRoles)
    (requests : List Request) (positions : BitPositions) :
    (start config source roles requests positions).AddsUp := by
  obtain ⟨zeros, known⟩ := counters_of_addCounters requests ∅ (by simp)
  have nothing (size : RequestStats → Nat)
      (zero : ∀ (id : RequestId) (stats : RequestStats),
        (requests.foldl addCounters ∅)[id]? = some stats → size stats = 0) :
      tableTotal size (requests.foldl addCounters ∅) = 0 := by
    unfold tableTotal
    rw [total_eq_zero]
    rintro _ listed
    obtain ⟨⟨id, stats⟩, member, rfl⟩ := List.mem_map.1 listed
    exact zero id stats (ExtTreeMap.mem_toList_iff_getElem?_eq_some.1 member)
  exact ⟨fun request member => known request.id (.inr ⟨request, member, rfl⟩),
    nothing _ fun id stats found => (zeros id stats found).1,
    nothing _ fun id stats found => (zeros id stats found).2⟩

theorem countP_bookings [SnapshotSource σ] (simulation : Simulation σ) (node : Option NodeId)
    (event : Event) : (simulation.bookings node event).countP (·.event.isArrival) =
      (simulation.happenings node event).countP (·.isCopy) := by
  have sequels : (simulation.sequels event).countP (·.event.isArrival) = 0 := by
    rw [List.countP_eq_zero]
    intro booking sequel arrives
    rcases simulation.event_of_sequels event booking sequel with
      ⟨_, _, _, timer⟩ | ⟨_, _, burst⟩
    · rw [timer] at arrives
      cases arrives
    · rw [burst] at arrives
      cases arrives
  unfold bookings happenings
  cases simulation.effects node event with
  | error error => rfl
  | ok effects =>
    dsimp only
    rw [List.countP_append, sequels, List.countP_filterMap, Nat.add_zero]
    refine List.countP_congr fun effect _ => ?_
    cases effect with
    | _ => simp [Effect.booking?, Effect.isCopy, Event.isArrival]

/-- The counters of a run account for the events of its log. -/
structure Balanced (log : List (Moment σ)) (simulation : Simulation σ) : Prop where
  addsUp : simulation.AddsUp
  events : simulation.stats.events = log.length
  total : total simulation.stats.byPriority.toList = log.length
  byPriority : simulation.stats.byPriority = .ofEvents (log.map Moment.event)
  sent : simulation.stats.packetsSent = log.countP (·.event.isBurst)
  copies : simulation.stats.copiesForwarded = log.countP (·.event.isArrival) +
    simulation.queue.booked.countP (·.event.isArrival)
  refreshes : simulation.stats.refreshes = simulation.driver.refreshes

theorem refreshes_handle [SnapshotSource σ] (simulation : Simulation σ) (node : Option NodeId)
    (event : Event) (same : simulation.stats.refreshes = simulation.driver.refreshes) :
    (simulation.handle node event).2.stats.refreshes =
      (simulation.handle node event).2.driver.refreshes := by
  rw [stats_handle, driver_handle]
  cases event with
  | timer timer =>
    cases timer with
    | refresh epoch =>
      have ways := simulation.driver.ends_refresh epoch
      simp only [tally, outcome?]
      generalize (simulation.driver.refresh epoch).1 = result at ways ⊢
      generalize (simulation.driver.refresh epoch).2 = later at ways ⊢
      cases ways with
      | early => exact same
      | unloaded => exact same
      | unbuilt => exact same
      | built _ _ _ _ _ _ _ _ _ install =>
        cases install
        exact congrArg (· + 1) same
    | unbind => exact same
  | burst => exact same
  | arrival => exact same

theorem copies_handle [SnapshotSource σ] (simulation : Simulation σ)
    (ordered : simulation.queue.Ordered) (horizon : Nat) (key : EventKey) (event : Event)
    (queue : EventQueue) (popped : simulation.queue.popUntil horizon = some (key, event, queue)) :
    ((simulation.pop event queue).handle key.node event).2.stats.copiesForwarded +
        simulation.queue.booked.countP (·.event.isArrival) =
      simulation.stats.copiesForwarded + [event].countP (·.isArrival) +
        ((simulation.pop event queue).handle key.node event).2.queue.booked.countP
          (·.event.isArrival) := by
  have out := simulation.queue.popped_of_popUntil queue horizon key event popped
  obtain ⟨rest, _, _⟩ := simulation.queue.ordered_of_popped queue ordered horizon key event out
  have waited : simulation.queue.booked.countP (·.event.isArrival) =
      queue.booked.countP (·.event.isArrival) + [event].countP (·.isArrival) := by
    rw [out.booked.countP_eq, List.countP_cons, List.countP_singleton]
    rfl
  have sends := (simulation.pop event queue).countP_bookings key.node event
  have waits := ((simulation.pop event queue).gains_handle rest key.node event).booked.countP_eq
    (·.event.isArrival)
  have forwarded : ((simulation.pop event queue).handle key.node event).2.stats.copiesForwarded =
      simulation.stats.copiesForwarded +
        ((simulation.pop event queue).happenings key.node event).countP (·.isCopy) := by
    rw [stats_handle]
    rfl
  have same : (simulation.pop event queue).queue = queue := rfl
  rw [List.countP_append, sends, same] at waits
  omega

theorem balanced_start (config : SimulationConfig) (source : σ) (roles : NodeRoles)
    (requests : List Request) (positions : BitPositions) :
    Balanced [] (start config source roles requests positions) where
  addsUp := addsUp_start config source roles requests positions
  events := rfl
  total := rfl
  byPriority := rfl
  sent := rfl
  copies := by
    rw [(booked_start config source roles requests positions).countP_eq, eq_comm]
    simp [start, Event.isArrival, Function.comp_def]
  refreshes := rfl

/-- An event is counted as it is handled. The copies that it sends wait, and if it is one that arrives
it has left the queue. -/
theorem Balanced.step [SnapshotSource σ] (log : List (Moment σ)) (simulation later : Simulation σ)
    (balanced : Balanced log simulation) (ordered : simulation.queue.Ordered) (horizon : Nat)
    (key : EventKey) (event : Event) (queue : EventQueue) (result : Except SimulationError Unit)
    (popped : simulation.queue.popUntil horizon = some (key, event, queue))
    (handled : (simulation.pop event queue).handle key.node event = (result, later))
    (known : ∀ id, event = .burst id → (simulation.driver.request? id).isSome = true) :
    Balanced (log ++ [⟨key, event, simulation.pop event queue, result, later⟩]) later := by
  obtain rfl : later = ((simulation.pop event queue).handle key.node event).2 := by rw [handled]
  have tallied := (simulation.pop event queue).stats_handle key.node event
  refine ⟨?_, ?_, ?_, ?_, ?_, ?_, ?_⟩
  · exact AddsUp.handle (simulation.pop event queue)
      (AddsUp.of_eq simulation balanced.addsUp _ rfl rfl rfl rfl) key.node event
  · rw [tallied, List.length_append, ← balanced.events]
    rfl
  · rw [tallied, List.length_append, ← balanced.total]
    exact PriorityCounts.total_count simulation.stats.byPriority event.priority
  · rw [tallied, List.map_append]
    exact (congrArg (·.count event.priority) balanced.byPriority).trans
      (PriorityCounts.count_ofEvents _ event)
  · have emitted : (simulation.pop event queue).emissions event = [event].countP (·.isBurst) := by
      cases event with
      | burst id => exact if_pos (known id rfl)
      | timer => rfl
      | arrival => rfl
    rw [tallied, List.countP_append, ← balanced.sent]
    exact congrArg (simulation.stats.packetsSent + ·) emitted
  · have copies := copies_handle simulation ordered horizon key event queue popped
    have before := balanced.copies
    rw [List.countP_append, List.countP_singleton]
    rw [List.countP_singleton] at copies
    dsimp only
    omega
  · exact refreshes_handle _ key.node event balanced.refreshes

theorem balanced_of_course [SnapshotSource σ] (config : SimulationConfig) (source : σ)
    (roles : NodeRoles) (requests : List Request) (positions : BitPositions) (log : List (Moment σ))
    (simulation : Simulation σ)
    (course : (start config source roles requests positions).Course log simulation) :
    Balanced log simulation := by
  induction course with
  | start => exact balanced_start config source roles requests positions
  | step log simulation later horizon key event queue result earlier _ popped handled ih =>
    obtain ⟨ordered, _⟩ := ordered_of_course _ simulation log
      (gains_start config source roles requests positions).ordered earlier
    refine Balanced.step log simulation later ih ordered horizon key event queue result popped handled
      fun id burst => ?_
    obtain ⟨_, handling⟩ := occurrences_step config source roles requests positions log simulation
      later earlier horizon key event queue result popped handled
    obtain ⟨request, member, same, _⟩ := exists_request_of_burst config source roles requests
      positions log simulation earlier _ handling id burst
    have setting := setting_of_course _ simulation log earlier
    have requests_eq : simulation.driver.requests = requests :=
      congrArg (fun setting => setting.2.2.1) setting
    rw [← same]
    exact simulation.driver.isSome_request? request (requests_eq ▸ member)
  | rest log simulation horizon _ _ ih =>
    exact ⟨AddsUp.of_eq simulation ih.addsUp _ rfl rfl rfl rfl, ih.events, ih.total, ih.byPriority,
      ih.sent, ih.copies, ih.refreshes⟩

/-- Every event is counted, whether it succeeded or failed: by its priority, a burst as a packet that
was sent, and an arrival as one of the copies, of which the others wait. The requests account for all
packets, and the driver counts the same refreshes. -/
theorem counters_of_course [SnapshotSource σ] (config : SimulationConfig) (source : σ)
    (roles : NodeRoles) (requests : List Request) (positions : BitPositions) (log : List (Moment σ))
    (simulation : Simulation σ)
    (course : (start config source roles requests positions).Course log simulation) :
    (simulation.stats.events = log.length ∧
      simulation.stats.events = total simulation.stats.byPriority.toList ∧
      simulation.stats.byPriority = .ofEvents (log.map Moment.event)) ∧
    (simulation.stats.packetsSent = log.countP (·.event.isBurst) ∧
      simulation.stats.packetsSent = tableTotal RequestStats.sent simulation.requestStats) ∧
    simulation.stats.packetsDelivered =
      tableTotal RequestStats.delivered simulation.requestStats ∧
    simulation.stats.copiesForwarded = log.countP (·.event.isArrival) +
      simulation.queue.waiting.countP (·.2.isArrival) ∧
    simulation.stats.refreshes = simulation.driver.refreshes := by
  have balanced := balanced_of_course config source roles requests positions log simulation course
  have waits : simulation.queue.booked.countP (·.event.isArrival) =
      simulation.queue.waiting.countP (·.2.isArrival) := List.countP_map
  exact ⟨⟨balanced.events, balanced.events.trans balanced.total.symm, balanced.byPriority⟩,
    ⟨balanced.sent, balanced.addsUp.sent.symm⟩, balanced.addsUp.delivered.symm,
    waits ▸ balanced.copies, balanced.refreshes⟩

def wantingRun : Simulation SnapshotPlan :=
  start { refresh := { interval := 10, finish := 30, forwarding := .bier }, linkLatency := 7 }
    (.diamond 10) (.terrestrial 4)
    [⟨4, 0, (∅ : NodeSet).insertMany [1], 1.0, 5, 3, "", ""⟩,
      ⟨9, 0, (∅ : NodeSet).insertMany [3], 1.0, 7, 3, "", ""⟩]
    ((BitPositions.sequential [1]).toOption.getD .empty)

/-- The packet of the second request is counted although it fails, while the copy of the first is
still on its way. -/
theorem counters_of_course_wanting :
    ∃ log simulation, wantingRun.Course log simulation ∧
      (∃ moment ∈ log, moment.event = .burst 9 ∧ moment.result.isOk = false) ∧
      simulation.stats.events = 3 ∧ simulation.stats.packetsSent = 2 ∧
      tableTotal RequestStats.sent simulation.requestStats = 2 ∧
      simulation.stats.copiesForwarded = 1 ∧
      simulation.queue.waiting.countP (·.2.isArrival) = 1 ∧ simulation.driver.refreshes = 1 := by
  have course := course_logUntil wantingRun wantingRun [] .start 9 100 (by decide)
  have failed : (wantingRun.logUntil 9 100).1.any (fun moment =>
      moment.event = .burst 9 ∧ moment.result.isOk = false) = true := by decide +kernel
  have three : (wantingRun.logUntil 9 100).1.length = 3 := by decide +kernel
  have bursts : (wantingRun.logUntil 9 100).1.countP (·.event.isBurst) = 2 := by decide +kernel
  have arrivals : (wantingRun.logUntil 9 100).1.countP (·.event.isArrival) = 0 := by decide +kernel
  have pending : (wantingRun.logUntil 9 100).2.queue.waiting.countP (·.2.isArrival) = 1 := by
    decide +kernel
  have refreshed : (wantingRun.logUntil 9 100).2.stats.refreshes = 1 := by decide +kernel
  obtain ⟨⟨events, _⟩, ⟨sent, ofRequests⟩, _, copies, refreshes⟩ :=
    counters_of_course _ (.diamond 10 : SnapshotPlan) (.terrestrial 4) _ _ _ _ course
  obtain ⟨moment, member, facts⟩ := List.any_eq_true.1 failed
  refine ⟨_, _, course, ⟨moment, member, of_decide_eq_true facts⟩, events.trans three,
    sent.trans bursts, ofRequests.symm.trans (sent.trans bursts), ?_, pending,
    refreshes.symm.trans refreshed⟩
  exact copies.trans (congrArg₂ (· + ·) arrivals pending)

end Simulation
end Multicast
