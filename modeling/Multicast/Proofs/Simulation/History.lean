import Multicast.Proofs.Simulation.Sound

/-!
Histories of runs. The handling of an event ends in one of a few ways, and a history takes events one
by one, whether they succeed or fail, and logs what is delivered. Main statement: with bitstrings, no
destination receives a packet twice, however refreshes and packets in flight follow each other.
-/

namespace Multicast
open Std

namespace Simulation
variable {σ : Type}

def deliveries (simulation : Simulation σ) (horizon : Nat) : List Delivery :=
  match simulation.queue.popUntil horizon with
  | none => []
  | some (key, event, _) => simulation.driver.taken key.node event

/-- The run is reached from the first one event by event, up to any horizons, and has delivered what
is logged. Its events are counted in 64 bits: a run that has used up its allowance takes no more. -/
inductive History [SnapshotSource σ] (first : Simulation σ) :
    List Delivery → Simulation σ → Prop where
  | start : History first [] first
  | step (log : List Delivery) (simulation later : Simulation σ) (horizon : Nat)
    (result : Except SimulationError Unit) (earlier : History first log simulation)
    (counted : simulation.stats.events < eventAllowance)
    (stepped : simulation.step horizon = some (result, later)) :
    History first (log ++ simulation.deliveries horizon) later
  | rest (log : List Delivery) (simulation : Simulation σ) (horizon : Nat)
    (earlier : History first log simulation) :
    History first log { simulation with queue := simulation.queue.advanceTo horizon }

def pop (simulation : Simulation σ) (event : Event) (queue : EventQueue) : Simulation σ :=
  { simulation with queue }.countEvent event

theorem step_of_popUntil [SnapshotSource σ] (simulation : Simulation σ) (horizon : Nat)
    (key : EventKey) (event : Event) (queue : EventQueue)
    (popped : simulation.queue.popUntil horizon = some (key, event, queue)) :
    simulation.step horizon = some ((simulation.pop event queue).handle key.node event) ∧
      simulation.deliveries horizon = simulation.driver.taken key.node event := by
  simp only [step, deliveries, popped, pop, and_self]

theorem step_eq_some [SnapshotSource σ] (simulation later : Simulation σ) (horizon : Nat)
    (result : Except SimulationError Unit)
    (stepped : simulation.step horizon = some (result, later)) :
    ∃ key event queue, simulation.queue.popUntil horizon = some (key, event, queue) ∧
      simulation.deliveries horizon = simulation.driver.taken key.node event ∧
      later = ((simulation.pop event queue).handle key.node event).2 := by
  cases popped : simulation.queue.popUntil horizon with
  | none => simp [step, popped] at stepped
  | some entry =>
    obtain ⟨key, event, queue⟩ := entry
    obtain ⟨handled, delivered⟩ := simulation.step_of_popUntil horizon key event queue popped
    have outcome := Option.some.inj (handled.symm.trans stepped)
    exact ⟨key, event, queue, rfl, delivered, (congrArg Prod.snd outcome).symm⟩

inductive Ends [SnapshotSource σ] (simulation : Simulation σ) (node : Option NodeId) :
    Event → Except SimulationError Unit → Simulation σ → Prop where
  | unrefreshed (epoch : Nat) (error : RefreshError) (driver : RefreshDriver σ)
    (refresh : simulation.driver.refresh epoch = (.error error, driver)) :
    Ends simulation node (.timer (.refresh epoch)) (.error (.refresh error))
      { simulation with driver }
  | refreshed (epoch : Nat) (outcome : RefreshOutcome) (timers : List TimerRequest)
    (driver : RefreshDriver σ)
    (refresh : simulation.driver.refresh epoch = (.ok (outcome, timers), driver)) :
    Ends simulation node (.timer (.refresh epoch)) (.ok ())
      { simulation with
        driver
        queue := timers.foldl (fun queue asked => queue.setTimer asked.timer asked.delay)
          simulation.queue
        stats := { simulation.stats with
          refreshes := simulation.stats.refreshes + 1
          entriesInstalled := simulation.stats.entriesInstalled + outcome.entriesInstalled } }
  | unbound (binding : LinkBinding) :
    Ends simulation node (.timer (.unbind binding)) (.ok ())
      { simulation with
        driver := simulation.driver.unbind binding
        stats := { simulation.stats with
          bindingsRemoved := simulation.stats.bindingsRemoved +
            if simulation.driver.bindings.isStale binding then 1 else 0 } }
  | unknown (id : RequestId) (found : simulation.driver.request? id = none) :
    Ends simulation node (.burst id) (.error (.unknownRequest id)) simulation
  | unsent (id : RequestId) (request : Request) (error : SimulationError)
    (found : simulation.driver.request? id = some request)
    (emit : simulation.driver.emit request simulation.config.hopLimit (simulation.sent id) =
      .error error) :
    Ends simulation node (.burst id) (.error error) (simulation.countSent id (simulation.sent id))
  | sent (id : RequestId) (request : Request) (effects : List Effect)
    (found : simulation.driver.request? id = some request)
    (emit : simulation.driver.emit request simulation.config.hopLimit (simulation.sent id) =
      .ok effects) :
    Ends simulation node (.burst id) (.ok ())
      (((simulation.countSent id (simulation.sent id)).applyEffects id effects).scheduleNext request)
  | stray (packet : Packet) (interface : InterfaceId) (nowhere : node = none) :
    Ends simulation node (.arrival packet interface) (.ok ()) simulation
  | unreceived (receiver : NodeId) (packet : Packet) (interface : InterfaceId)
    (error : SimulationError) (here : node = some receiver)
    (receive : simulation.driver.receive receiver packet = .error error) :
    Ends simulation node (.arrival packet interface) (.error error) simulation
  | received (receiver : NodeId) (packet : Packet) (interface : InterfaceId)
    (effects : List Effect) (here : node = some receiver)
    (receive : simulation.driver.receive receiver packet = .ok effects) :
    Ends simulation node (.arrival packet interface) (.ok ())
      (simulation.applyEffects packet.request effects)

theorem ends_handle [SnapshotSource σ] (simulation : Simulation σ) (node : Option NodeId)
    (event : Event) : simulation.Ends node event (simulation.handle node event).1
      (simulation.handle node event).2 := by
  cases event with
  | timer timer =>
    cases timer with
    | refresh epoch =>
      rcases refresh : simulation.driver.refresh epoch with ⟨error | ⟨outcome, timers⟩, driver⟩
      · simp only [handle, handleRefresh, refresh]
        exact .unrefreshed epoch error driver refresh
      · simp only [handle, handleRefresh, refresh]
        exact .refreshed epoch outcome timers driver refresh
    | unbind binding =>
      have ends : simulation.Ends node (.timer (.unbind binding)) (.ok ()) _ := .unbound binding
      simp only [handle, handleUnbind]
      split
      · rename_i stale
        rwa [if_pos stale] at ends
      · rename_i fresh
        rwa [if_neg fresh] at ends
  | burst id =>
    have number : simulation.sequences[id]?.getD 0 = simulation.sent id := rfl
    cases found : simulation.driver.request? id with
    | none =>
      simp only [handle, handleBurst, found]
      exact .unknown id found
    | some request =>
      cases emit : simulation.driver.emit request simulation.config.hopLimit (simulation.sent id) with
      | error error =>
        simp only [handle, handleBurst, found, number, emit]
        exact .unsent id request error found emit
      | ok effects =>
        simp only [handle, handleBurst, found, number, emit]
        exact .sent id request effects found emit
  | arrival packet interface =>
    cases node with
    | none => exact .stray packet interface rfl
    | some receiver =>
      cases receive : simulation.driver.receive receiver packet with
      | error error =>
        simp only [handle, handleArrival, receive]
        exact .unreceived receiver packet interface error rfl receive
      | ok effects =>
        simp only [handle, handleArrival, receive]
        exact .received receiver packet interface effects rfl receive

section
variable (simulation : Simulation σ) (request : Request)

@[simp] theorem config_scheduleNext : (simulation.scheduleNext request).config = simulation.config := by
  simp only [scheduleNext, apply_ite Simulation.config, ite_self]

@[simp] theorem driver_scheduleNext : (simulation.scheduleNext request).driver = simulation.driver := by
  simp only [scheduleNext, apply_ite Simulation.driver, ite_self]

@[simp] theorem sequences_scheduleNext :
    (simulation.scheduleNext request).sequences = simulation.sequences := by
  simp only [scheduleNext, apply_ite Simulation.sequences, ite_self]

@[simp] theorem stats_scheduleNext : (simulation.scheduleNext request).stats = simulation.stats := by
  simp only [scheduleNext, apply_ite Simulation.stats, ite_self]

@[simp] theorem requestStats_scheduleNext :
    (simulation.scheduleNext request).requestStats = simulation.requestStats := by
  simp only [scheduleNext, apply_ite Simulation.requestStats, ite_self]

end

/-- What a handler counts: no event of its own, and at most one packet of each request. -/
structure Counts (simulation later : Simulation σ) : Prop where
  events : later.stats.events = simulation.stats.events
  sent : ∀ request, later.sent request ≤ simulation.sent request + 1

theorem counts_of_eq (simulation later : Simulation σ)
    (events : later.stats.events = simulation.stats.events)
    (sequences : later.sequences = simulation.sequences) : Counts simulation later where
  events := events
  sent request := by
    rw [sent_of_sequences simulation later sequences]
    exact Nat.le_succ _

theorem counts_countSent (simulation later : Simulation σ) (id : RequestId)
    (events : later.stats.events = simulation.stats.events)
    (sequences : later.sequences = (simulation.countSent id (simulation.sent id)).sequences) :
    Counts simulation later := by
  refine ⟨events, fun request => ?_⟩
  rw [sent_of_sequences _ later sequences, sent_countSent]
  split
  · exact Nat.le_refl _
  · exact Nat.le_succ _

theorem counts_handle [SnapshotSource σ] (simulation : Simulation σ) (node : Option NodeId)
    (event : Event) : Counts simulation (simulation.handle node event).2 := by
  have ways := simulation.ends_handle node event
  generalize (simulation.handle node event).1 = result at ways
  generalize (simulation.handle node event).2 = later at ways ⊢
  cases ways with
  | unrefreshed => exact counts_of_eq _ _ rfl rfl
  | refreshed => exact counts_of_eq _ _ rfl rfl
  | unbound => exact counts_of_eq _ _ rfl rfl
  | unknown => exact counts_of_eq _ _ rfl rfl
  | unsent id => exact simulation.counts_countSent _ id rfl rfl
  | sent id request effects =>
    have applied := (simulation.countSent id (simulation.sent id)).applied_applyEffects id effects
    exact simulation.counts_countSent _ id (by rw [stats_scheduleNext, applied.events]; rfl)
      (by rw [sequences_scheduleNext, applied.sequences])
  | stray => exact counts_of_eq _ _ rfl rfl
  | unreceived => exact counts_of_eq _ _ rfl rfl
  | received _ packet _ effects =>
    have applied := simulation.applied_applyEffects packet.request effects
    exact counts_of_eq _ _ applied.events applied.sequences

theorem events_step [SnapshotSource σ] (simulation later : Simulation σ) (horizon : Nat)
    (result : Except SimulationError Unit)
    (stepped : simulation.step horizon = some (result, later)) :
    later.stats.events = simulation.stats.events + 1 := by
  obtain ⟨key, event, queue, _, _, rfl⟩ := step_eq_some simulation later horizon result stepped
  exact (counts_handle (simulation.pop event queue) key.node event).events

theorem exists_history_runWithin [SnapshotSource σ] (first simulation : Simulation σ)
    (log : List Delivery) (history : first.History log simulation) (horizon allowance : Nat)
    (counted : simulation.stats.events + allowance ≤ eventAllowance) :
    ∃ later, first.History (log ++ later) (simulation.runWithin horizon allowance).2 := by
  induction allowance generalizing log simulation with
  | zero => exact ⟨[], by simpa [runWithin] using history⟩
  | succ allowance ih =>
    have within : simulation.stats.events < eventAllowance := by omega
    unfold runWithin
    split
    · exact ⟨[], by simpa using history.rest log simulation horizon⟩
    · rename_i error failed stepped
      exact ⟨_, history.step log simulation failed horizon _ within stepped⟩
    · rename_i later stepped
      have events := events_step simulation later horizon _ stepped
      obtain ⟨further, history⟩ := ih later _
        (history.step log simulation later horizon _ within stepped) (by omega)
      rw [List.append_assoc] at history
      exact ⟨_, history⟩

theorem exists_history_run [SnapshotSource σ] (config : SimulationConfig) (source : σ)
    (roles : NodeRoles) (requests : List Request) (positions : BitPositions) :
    ∃ log, (start config source roles requests positions).History log
      (start config source roles requests positions).run.2 := by
  obtain ⟨log, history⟩ := exists_history_runWithin _ (start config source roles requests positions)
    [] .start config.refresh.finish eventAllowance (by simp [start])
  exact ⟨log, history⟩

theorem sent_start (config : SimulationConfig) (source : σ) (roles : NodeRoles)
    (requests : List Request) (positions : BitPositions) (request : RequestId) :
    (start config source roles requests positions).sent request = 0 := by
  simp [sent, start]

theorem start_queue (requests : List Request) (queue : EventQueue) (readable : queue.Readable) :
    (requests.foldl scheduleFirst queue).copies.Subperm queue.copies ∧
      (requests.foldl scheduleFirst queue).Readable := by
  induction requests generalizing queue with
  | nil => exact ⟨.refl _, readable⟩
  | cons request rest ih =>
    have first : (scheduleFirst queue request).copies.Subperm queue.copies ∧
        (scheduleFirst queue request).Readable := by
      unfold scheduleFirst
      split
      · exact ⟨.refl _, readable⟩
      · refine ⟨queue.copies_schedule _ _ _, queue.readable_schedule _ _ _ readable ?_⟩
        rintro _ _ ⟨⟩
    obtain ⟨copies, readable⟩ := ih _ first.2
    exact ⟨copies.trans first.1, readable⟩

def addCounters (table : ExtTreeMap RequestId RequestStats) (request : Request) :
    ExtTreeMap RequestId RequestStats :=
  table.insert request.id { destinations := request.destinations.size }

theorem addCounters_of_absent (requests : List Request)
    (table : ExtTreeMap RequestId RequestStats) (id : RequestId)
    (absent : ∀ request ∈ requests, request.id ≠ id) :
    (requests.foldl addCounters table)[id]? = table[id]? := by
  induction requests generalizing table with
  | nil => rfl
  | cons first rest ih =>
    obtain ⟨own, others⟩ := List.forall_mem_cons.1 absent
    rw [List.foldl_cons, ih _ others, addCounters, ExtTreeMap.getElem?_insert,
      if_neg (by rwa [Std.compare_eq_iff_eq])]

theorem addCounters_of_mem (requests : List Request)
    (distinct : requests.Pairwise fun one other => one.id ≠ other.id)
    (table : ExtTreeMap RequestId RequestStats) (request : Request) (member : request ∈ requests) :
    (requests.foldl addCounters table)[request.id]? =
      some { destinations := request.destinations.size } := by
  induction requests generalizing table with
  | nil => cases member
  | cons first rest ih =>
    obtain ⟨different, distinct⟩ := List.pairwise_cons.1 distinct
    rcases List.mem_cons.1 member with rfl | later
    · rw [List.foldl_cons, addCounters_of_absent rest _ _ fun other inside =>
        (different other inside).symm]
      simp [addCounters]
    · exact ih distinct _ later

theorem sound_start (config : SimulationConfig) (source : σ) (roles : NodeRoles)
    (requests : List Request) (positions : BitPositions)
    (bier : config.refresh.forwarding = .bier)
    (distinct : requests.Pairwise fun one other => one.id ≠ other.id) :
    Sound requests positions [] [] (start config source roles requests positions) := by
  have first : (EventQueue.empty.schedule none 0 (.timer (.refresh 0))).Readable := by
    apply EventQueue.readable_schedule _ _ _ _ (by simp [EventQueue.Readable, EventQueue.empty])
    rintro _ _ ⟨⟩
  obtain ⟨copies, readable⟩ := start_queue requests _ first
  have none : (start config source roles requests positions).queue.copies.Subperm [] :=
    copies.trans (EventQueue.copies_schedule .empty none 0 (.timer (.refresh 0)))
  refine ⟨⟨config.refresh, roles, bier, rfl⟩, ?_, readable, ?_, ?_⟩
  · intro node table found
    simp [start, RefreshDriver.start, RefreshDriver.bierTable?] at found
  · exact (Flight.nothing requests positions _).of_subperm _ none
  · intro request member
    exact ⟨_, addCounters_of_mem requests distinct ∅ request member, rfl,
      (sent_start ..).symm, rfl⟩

theorem Sound.pop {requests : List Request} {positions : BitPositions} {log : List Delivery}
    {simulation : Simulation σ} (sound : Sound requests positions log [] simulation)
    (horizon : Nat) (key : EventKey) (event : Event) (queue : EventQueue)
    (popped : simulation.queue.popUntil horizon = some (key, event, queue)) :
    Sound requests positions log event.copy?.toList (simulation.pop event queue) where
  setting := sound.setting
  placed := sound.placed
  readable := (EventQueue.readable_popUntil _ _ _ _ _ sound.readable popped).2
  flight := sound.flight.of_subperm _ (EventQueue.copies_popUntil _ _ _ _ _ popped)
  accounts := sound.accounts

/-- Every history is sound: no request has sent more packets than there were events, so sequence
numbers do not repeat. -/
theorem sound_of_history [SnapshotSource σ] (config : SimulationConfig) (source : σ)
    (roles : NodeRoles) (requests : List Request) (positions : BitPositions)
    (bier : config.refresh.forwarding = .bier)
    (distinct : requests.Pairwise fun one other => one.id ≠ other.id) (log : List Delivery)
    (simulation : Simulation σ)
    (history : (start config source roles requests positions).History log simulation) :
    Sound requests positions log [] simulation ∧
      ∀ request, simulation.sent request ≤ simulation.stats.events := by
  induction history with
  | start =>
    exact ⟨sound_start config source roles requests positions bier distinct,
      fun request => by simp [sent_start]⟩
  | step log simulation later horizon result _ counted stepped ih =>
    obtain ⟨sound, before⟩ := ih
    rw [events_step simulation later horizon result stepped]
    obtain ⟨key, event, queue, popped, delivered, rfl⟩ :=
      step_eq_some simulation later horizon result stepped
    have counts := counts_handle (simulation.pop event queue) key.node event
    rw [delivered]
    constructor
    · apply Sound.handle key.node event _ (sound.pop horizon key event queue popped)
      intro request
      exact Nat.lt_of_le_of_lt (before request) counted
    · intro request
      calc
        _ ≤ simulation.sent request + 1 := counts.sent request
        _ ≤ simulation.stats.events + 1 := Nat.succ_le_succ (before request)
  | rest log simulation horizon _ ih =>
    obtain ⟨sound, before⟩ := ih
    exact ⟨sound.change _ rfl sound.placed sound.readable (.refl _) rfl rfl, before⟩

def copies (simulation : Simulation σ) (request : RequestId) (sequence : UInt64) : List Bitstring :=
  (simulation.queue.copies.filter fun copy => copy.request = request ∧ copy.sequence = sequence).map
    Copy.bitstring

theorem mem_copies (simulation : Simulation σ) (request : RequestId) (sequence : UInt64)
    (bitstring : Bitstring) :
    bitstring ∈ simulation.copies request sequence ↔
      ⟨request, sequence, bitstring⟩ ∈ simulation.queue.copies := by
  unfold copies
  rw [List.mem_map]
  constructor
  · rintro ⟨copy, listed, rfl⟩
    obtain ⟨member, same⟩ := List.mem_filter.1 listed
    obtain ⟨rfl, rfl⟩ : copy.request = request ∧ copy.sequence = sequence := by simpa using same
    exact member
  · intro member
    exact ⟨_, List.mem_filter.2 ⟨member, by simp⟩, rfl⟩

/-- In every state of a run with bitstrings, the copies of a packet in flight share positions of its
destinations, without those that have received it. So no destination receives a packet twice. -/
theorem bier_delivers_at_most_once [SnapshotSource σ] (config : SimulationConfig) (source : σ)
    (roles : NodeRoles) (requests : List Request) (positions : BitPositions)
    (bier : config.refresh.forwarding = .bier)
    (distinct : requests.Pairwise fun one other => one.id ≠ other.id) (log : List Delivery)
    (simulation : Simulation σ)
    (history : (start config source roles requests positions).History log simulation) :
    (∀ (key : EventKey) (packet : Packet) (interface : InterfaceId),
      simulation.queue.events[key]? = some (.arrival packet interface) →
        ∃ copy ∈ simulation.queue.copies, packet.copy? = some copy) ∧
    (∀ request ∈ requests, ∀ sequence,
      (simulation.copies request.id sequence).Pairwise Bitstring.Disjoint ∧
      ∀ bitstring ∈ simulation.copies request.id sequence, bitstring.isZero = false ∧
        request.Addresses positions bitstring ∧
        ∀ destination, ⟨request.id, sequence, destination⟩ ∈ log →
          ∀ position, positions.positionOf? destination = some position →
            bitstring.test position = false) ∧
    (log.Nodup ∧ ∀ delivery ∈ log, ∃ request ∈ requests, delivery.request = request.id ∧
      delivery.node ∈ request.destinations) ∧
    ∀ request ∈ requests, ∃ stats, simulation.requestStats[request.id]? = some stats ∧
      stats.sent = simulation.sent request.id ∧
      stats.delivered = log.countP (·.request = request.id) ∧
      stats.delivered ≤ stats.sent * request.destinations.size := by
  have sound := (sound_of_history config source roles requests positions bier distinct log simulation
    history).1
  have flight := sound.flight
  rw [List.nil_append] at flight
  refine ⟨?_, ?_, ⟨flight.once, flight.known⟩, ?_⟩
  · intro key packet interface found
    obtain ⟨copy, carried⟩ := sound.readable key _ found packet interface rfl
    have entry := (EventQueue.mem_entries _ (key, .arrival packet interface)).2 found
    exact ⟨copy, List.mem_filterMap.2 ⟨_, entry, carried⟩, carried⟩
  · intro request member sequence
    refine ⟨?_, fun bitstring listed => ?_⟩
    · unfold copies
      rw [List.pairwise_map, List.pairwise_filter]
      apply flight.apart.imp
      intro one other apart chosen chosen'
      obtain ⟨own, number⟩ : one.request = request.id ∧ one.sequence = sequence := by
        simpa using chosen
      obtain ⟨own', number'⟩ : other.request = request.id ∧ other.sequence = sequence := by
        simpa using chosen'
      exact apart (own.trans own'.symm) (number.trans number'.symm)
    · rw [mem_copies] at listed
      obtain ⟨request', known, same, addresses⟩ := flight.addressed _ listed
      obtain rfl := Request.eq_of_id requests distinct request request' member known same
      refine ⟨flight.inhabited _ listed, addresses, fun destination logged => ?_⟩
      exact flight.unreceived _ listed _ logged rfl rfl
  · intro request member
    obtain ⟨stats, found, _, sent, delivered⟩ := sound.accounts request member
    refine ⟨stats, found, sent, delivered, ?_⟩
    rw [delivered, sent]
    exact flight.deliveries_le distinct request member

/-- The deliveries and the state after the given number of events, as the queue lists them. -/
def trace [SnapshotSource σ] (first : Simulation σ) : (count : Nat) → List Delivery × Simulation σ
  | 0 => ([], first)
  | count + 1 =>
    match first.trace count with
    | (log, simulation) =>
      match simulation.queue.events.toList.head? with
      | none => (log, simulation)
      | some (key, event) =>
        let queue := { simulation.queue with
          events := simulation.queue.events.erase key
          now := key.time }
        (log ++ simulation.driver.taken key.node event,
          ((simulation.pop event queue).handle key.node event).2)

theorem history_trace [SnapshotSource σ] (first : Simulation σ) (count : Nat)
    (counted : first.stats.events + count ≤ eventAllowance) :
    first.History (first.trace count).1 (first.trace count).2 ∧
      (first.trace count).2.stats.events ≤ first.stats.events + count := by
  induction count with
  | zero => exact ⟨.start, Nat.le_refl _⟩
  | succ count ih =>
    specialize ih (by omega)
    unfold trace
    generalize first.trace count = reached at ih ⊢
    obtain ⟨log, simulation⟩ := reached
    dsimp only at ih ⊢
    obtain ⟨history, events⟩ := ih
    split
    · exact ⟨history, Nat.le_succ_of_le events⟩
    · rename_i key event head
      have popped : simulation.queue.popUntil key.time = some (key, event,
          { simulation.queue with
            events := simulation.queue.events.erase key
            now := key.time }) := by
        rw [simulation.queue.popUntil_of_head? _ key event head, if_neg (Nat.lt_irrefl _)]
      obtain ⟨stepped, delivered⟩ := simulation.step_of_popUntil key.time key event _ popped
      rw [← delivered]
      refine ⟨history.step log simulation _ key.time _ (by omega) stepped, ?_⟩
      calc
        _ = simulation.stats.events + 1 := events_step simulation _ key.time _ stepped
        _ ≤ first.stats.events + count + 1 := Nat.succ_le_succ events

def diamondRun : Simulation SnapshotPlan :=
  start { refresh := { interval := 10, finish := 30, forwarding := .bier }, linkLatency := 7 }
    (.diamond 10) (.terrestrial 4) diamondSchedule
    ((BitPositions.sequential [1, 3]).toOption.getD .empty)

/-- After the second refresh node 1 has taken the first packet, and the copy for node 3 is on its
way. -/
theorem bier_delivers_at_most_once_diamond :
    ∃ simulation, diamondRun.History [⟨4, 0, 1⟩] simulation ∧
      simulation.stats.refreshes = 2 ∧ simulation.copies 4 0 = [.single 1] ∧
      (∀ bitstring ∈ simulation.copies 4 0, bitstring.isZero = false ∧
        bitstring.test 0 = false) ∧
      ∃ stats, simulation.requestStats[4]? = some stats ∧ stats.delivered = 1 ∧
        stats.delivered ≤ stats.sent * 2 := by
  have reached := (diamondRun.history_trace 4 (by decide)).1
  have logged : (diamondRun.trace 4).1 = [⟨4, 0, 1⟩] := by decide +kernel
  have refreshes : (diamondRun.trace 4).2.stats.refreshes = 2 := by decide +kernel
  have copies : (diamondRun.trace 4).2.copies 4 0 = [.single 1] := by decide +kernel
  rw [logged] at reached
  obtain ⟨-, flight, -, accounts⟩ := bier_delivers_at_most_once _ _ _ _ _ rfl (by decide) _ _ reached
  have member : diamondSchedule[0] ∈ diamondSchedule := List.getElem_mem _
  refine ⟨_, reached, refreshes, copies, fun bitstring listed => ?_, ?_⟩
  · obtain ⟨inhabited, -, unreceived⟩ := (flight _ member 0).2 bitstring listed
    exact ⟨inhabited, unreceived 1 (by decide) 0 (by decide +kernel)⟩
  · obtain ⟨stats, found, -, delivered, bounded⟩ := accounts _ member
    exact ⟨stats, found, delivered, bounded⟩

end Simulation
end Multicast
