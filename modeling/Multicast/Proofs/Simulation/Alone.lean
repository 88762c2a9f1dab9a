import Multicast.Proofs.Refresh.Alone
import Multicast.Proofs.Simulation.Accounts
import Multicast.Proofs.Simulation.Refreshes
import Multicast.Proofs.Simulation.Stages

/-!
Requests do not influence each other. Two runs, one of several requests and one of a single one of them,
are followed event by event: what concerns the request happens in both, in the same order, and what does
not concern it leaves its state, its packets and its counters as they are. Main statement: a run that
ends without error gives each request the counters that it has in a run of its own.
-/

namespace Multicast
open Std

def Event.concerns (request : Request) : Event → Bool
  | .timer asked => asked.concerns request
  | .burst id => id = request.id
  | .arrival packet _ => packet.request = request.id

/-! ## Packets of the request -/

namespace RefreshDriver
variable {σ : Type} (request : Request) (all alone : RefreshDriver σ)
  (alike : Alike request all alone)
include alike

theorem Alike.listeners (node : NodeId) (interface : InterfaceId) :
    alone.listeners (request.group .routeBase) node interface =
      all.listeners (request.group .routeBase) node interface := by
  unfold RefreshDriver.listeners neighbor?
  rw [alike.bindings, LinkBindings.receivers_ofGroup, alike.snapshot]

theorem Alike.transmit (node : NodeId) (interface : InterfaceId) (packet : Packet)
    (group : packet.group = request.group .routeBase) :
    alone.transmit node interface packet = all.transmit node interface packet := by
  unfold RefreshDriver.transmit
  rw [group, alike.listeners]

theorem Alike.sendTo (node neighbor : NodeId) (packet : Packet) :
    alone.sendTo node neighbor packet = all.sendTo node neighbor packet := by
  unfold RefreshDriver.sendTo
  rw [alike.snapshot]

theorem Alike.emit (hopLimit sequence : Nat) :
    alone.emit request hopLimit sequence = all.emit request hopLimit sequence := by
  unfold RefreshDriver.emit
  rw [alike.config]
  cases all.config.forwarding with
  | routeTable =>
    dsimp only
    unfold emitRouted
    rw [alike.decides]
    split
    · rfl
    · rw [alike.transmit request all alone _ _ _ rfl]
    · rfl
  | bier =>
    dsimp only
    unfold emitBier bierTable?
    rw [alike.positions, alike.tables]
    simp only [alike.sendTo request all alone]

theorem Alike.request? :
    all.request? request.id = some request ∧ alone.request? request.id = some request := by
  have distinct : all.requests.Pairwise fun one other => one.id ≠ other.id :=
    alike.separate.imp fun apart same => apart (by unfold Request.group; rw [same])
  refine ⟨all.request?_of_mem distinct request alike.member, ?_⟩
  refine alone.request?_of_mem ?_ request ?_
  · rw [alike.requests]
    exact List.pairwise_singleton _ _
  · rw [alike.requests]
    exact List.mem_cons_self

theorem Alike.receive (node : NodeId) (packet : Packet)
    (addressed : packet.Addressed request all.config.forwarding) :
    alone.receive node packet = all.receive node packet := by
  obtain ⟨found, found'⟩ := alike.request?
  unfold RefreshDriver.receive
  rw [addressed.numbered, found, found', alike.config]
  dsimp only
  cases mode : all.config.forwarding with
  | routeTable =>
    dsimp only
    have relays (copied : Packet) (group : copied.group = request.group .routeBase) :
        alone.relay node copied = all.relay node copied := by
      funext interface
      unfold relay
      cases forwarded : copied.forwarded? copied.header with
      | none => rfl
      | some copy =>
        obtain ⟨_, rfl⟩ := (copied.forwarded?_eq_some copy _).1 forwarded
        exact alike.transmit request all alone node interface _ group
    unfold receiveRouted
    rw [addressed.source, addressed.group mode, alike.decides, relays packet (addressed.group mode)]
  | bier =>
    dsimp only
    have relays (header : BierHeader) :
        alone.relayReplica node packet header = all.relayReplica node packet header := by
      funext replica
      unfold relayReplica
      simp only [alike.sendTo request all alone]
    unfold receiveBier bierTable?
    simp only [alike.tables, relays]

end RefreshDriver

/-! ## Runs of the request -/

/-- If the booking is a packet that arrives, it is addressed as one of the request. -/
def Booking.Addressed (booking : Booking) (request : Request) (forwarding : Forwarding) : Prop :=
  ∀ packet interface, booking.event = .arrival packet interface →
    packet.Addressed request forwarding

namespace Simulation
variable {σ : Type}

/-- One of two runs is of the request alone, and it does what the other one does for it. What waits
there is what waits for the request here, in the same order. -/
structure Alike (request : Request) (all alone : Simulation σ) : Prop where
  config : alone.config = all.config
  driver : all.driver.Alike request alone.driver
  ordered : all.queue.Ordered
  ordered' : alone.queue.Ordered
  booked : alone.queue.booked = all.queue.booked.filter (·.event.concerns request)
  addressed : ∀ booking ∈ alone.queue.booked,
    booking.Addressed request alone.driver.config.forwarding
  sent : alone.sent request.id = all.sent request.id
  counted : all.requestStats[request.id]?.isSome = true
  counters : alone.requestStats[request.id]? = all.requestStats[request.id]?

section
variable [SnapshotSource σ] (request : Request) (simulation : Simulation σ) (node : Option NodeId)
  (event : Event) (other : ∀ epoch, event ≠ .timer (.refresh epoch))
include other

theorem concerns_of_bookings (booking : Booking)
    (booked : booking ∈ simulation.bookings node event) :
    booking.event.concerns request = event.concerns request := by
  rcases simulation.copy_or_sequel_of_mem_bookings node event booking booked with
    ⟨effects, receiver, interface, copy, happens, sent, rfl⟩ | sequel
  · rcases simulation.request_of_effects node event effects happens receiver interface copy sent with
      rfl | ⟨packet, entered, rfl, same⟩
    · rfl
    · simp only [Event.concerns, same]
  · rcases simulation.event_of_sequels event booking sequel with
      ⟨epoch, _, refresh, _⟩ | ⟨id, rfl, same⟩
    · exact absurd refresh (other epoch)
    · rw [same]

omit other in
theorem addressed_of_bookings (single : simulation.driver.requests = [request])
    (addressed : Booking.Addressed ⟨node, simulation.now, event⟩ request
      simulation.driver.config.forwarding) (booking : Booking)
    (booked : booking ∈ simulation.bookings node event) :
    booking.Addressed request simulation.driver.config.forwarding := by
  intro copy interface arrives
  rcases simulation.copy_or_sequel_of_mem_bookings node event booking booked with
    ⟨effects, receiver, interface, copy, happens, sent, rfl⟩ | sequel
  · cases arrives
    cases event with
    | timer timer =>
      cases happens
      cases sent
    | burst id =>
      simp only [Simulation.effects] at happens
      split at happens
      · cases happens
      · rename_i found
        have listed := (simulation.driver.request?_eq_some id _ found).1
        rw [single, List.mem_singleton] at listed
        subst listed
        exact simulation.driver.addressed_of_emit _ _ _ _ happens _ _ _ sent
    | arrival packet entered =>
      cases node with
      | none =>
        cases happens
        cases sent
      | some here =>
        obtain ⟨header, forwarded⟩ :=
          simulation.driver.exists_forwarded?_of_receive _ _ _ _ _ _ happens sent
        exact (addressed packet entered rfl).forwarded packet copy _ _ header forwarded
  · rcases simulation.event_of_sequels event booking sequel with ⟨_, timer, _, same⟩ | ⟨_, _, same⟩
    · cases arrives.symm.trans same
    · cases arrives.symm.trans same

end

section
variable [SnapshotSource σ] (request : Request) (all alone : Simulation σ)
  (alike : Alike request all alone) (node : Option NodeId) (event : Event)
include alike

omit alike [SnapshotSource σ] in
theorem not_refresh_of_concerns (other : event.concerns request = false) (epoch : Nat) :
    event ≠ .timer (.refresh epoch) := by
  rintro rfl
  cases other

omit alike [SnapshotSource σ] in
theorem taken_of_concerns (other : event.concerns request = false) :
    event ≠ .burst request.id ∧ all.taken node event request.id = 0 := by
  have apart : event.request? ≠ some request.id := by
    cases event with
    | timer timer => simp [Event.request?]
    | burst id => simpa [Event.concerns, Event.request?] using other
    | arrival packet interface => simpa [Event.concerns, Event.request?] using other
  constructor
  · rintro rfl
    exact apart rfl
  · unfold taken
    split
    · rw [if_neg apart]
    · rfl

theorem Alike.handle_other (other : event.concerns request = false) (later : Simulation σ)
    (result : Except SimulationError Unit) (handled : all.handle node event = (result, later)) :
    Alike request later alone := by
  have noRefresh := not_refresh_of_concerns request event other
  obtain ⟨noBurst, untaken⟩ := taken_of_concerns request all node event other
  have config := all.config_handle node event
  have driver := all.driver_handle node event
  have gains := all.gains_handle alike.ordered node event
  have sent := all.sent_handle node event request.id
  have counters := all.requestStats_handle node event request.id
  rw [handled] at config driver gains sent counters
  refine ⟨alike.config.trans config.symm, ?_, gains.ordered, alike.ordered', ?_, alike.addressed, ?_,
    ?_, ?_⟩
  · rw [driver]
    cases event with
    | timer timer =>
      cases timer with
      | refresh epoch => exact absurd rfl (noRefresh epoch)
      | unbind binding =>
        have unbound := alike.driver.unbind request all.driver alone.driver binding
        rwa [if_neg (by simpa [Event.concerns] using other)] at unbound
    | burst id => exact alike.driver
    | arrival packet interface => exact alike.driver
  · have nothing : (all.bookings node event).filter (·.event.concerns request) = [] :=
      List.filter_eq_nil_iff.2 fun booking booked => by
        rw [concerns_of_bookings request all node event noRefresh booking booked, other]
        decide
    rw [gains.placed, Booking.filter_foldl_place _ (all.queue.sorted_booked alike.ordered), nothing]
    exact alike.booked
  · rw [sent, if_neg fun both => noBurst both.1]
    exact alike.sent
  · rw [counters, Option.isSome_map]
    exact alike.counted
  · rw [counters, untaken, if_neg fun both => noBurst both.1, alike.counters]
    exact Option.map_id_fun'.symm ▸ rfl

section
variable (mine : event.concerns request = true)
  (addressed : Booking.Addressed ⟨node, alone.now, event⟩ request alone.driver.config.forwarding)
include mine addressed

omit [SnapshotSource σ] in
theorem Alike.effects : alone.effects node event = all.effects node event := by
  cases event with
  | timer timer => rfl
  | burst id =>
    obtain rfl : id = request.id := of_decide_eq_true mine
    obtain ⟨found, found'⟩ := alike.driver.request?
    rw [effects_of_request? _ _ _ _ found, effects_of_request? _ _ _ _ found', alike.config,
      alike.sent]
    exact alike.driver.emit request all.driver alone.driver _ _
  | arrival packet interface =>
    cases node with
    | none => rfl
    | some here =>
      exact alike.driver.receive request all.driver alone.driver here packet
        (alike.driver.config ▸ addressed packet interface rfl)

variable (later : Simulation σ) (handled : all.handle node event = (.ok (), later))
include handled

theorem Alike.result : (alone.handle node event).1 = .ok () := by
  by_cases refresh : ∃ epoch, event = .timer (.refresh epoch)
  · obtain ⟨epoch, rfl⟩ := refresh
    obtain ⟨outcome, timers, driver, refreshed⟩ :=
      all.ok_of_handle_refresh later node _ epoch rfl handled
    obtain ⟨_, _, refreshed', _⟩ :=
      alike.driver.refresh request all.driver alone.driver epoch outcome timers driver refreshed
    simp only [Simulation.handle, handleRefresh, refreshed']
  · have other (epoch : Nat) : event ≠ .timer (.refresh epoch) := fun same => refresh ⟨epoch, same⟩
    rw [alone.result_handle node event other,
      alike.effects request all alone node event mine addressed,
      ← all.result_handle node event other, handled]

theorem Alike.driver_handle :
    later.driver.Alike request (alone.handle node event).2.driver := by
  have driver := all.driver_handle node event
  rw [handled] at driver
  rw [driver, alone.driver_handle]
  cases event with
  | timer timer =>
    cases timer with
    | refresh epoch =>
      obtain ⟨outcome, timers, driver, refreshed⟩ :=
        all.ok_of_handle_refresh later node _ epoch rfl handled
      obtain ⟨_, _, refreshed', after⟩ :=
        alike.driver.refresh request all.driver alone.driver epoch outcome timers driver refreshed
      dsimp only
      rwa [refreshed, refreshed']
    | unbind binding =>
      have own : (Timer.unbind binding).concerns request = true := mine
      have unbound := alike.driver.unbind request all.driver alone.driver binding
      rwa [if_pos own] at unbound
  | burst id => exact alike.driver
  | arrival packet interface => exact alike.driver

variable (now : alone.now = all.now)
include now

theorem Alike.bookings :
    alone.bookings node event =
      (all.bookings node event).filter (·.event.concerns request) := by
  by_cases refresh : ∃ epoch, event = .timer (.refresh epoch)
  · obtain ⟨epoch, rfl⟩ := refresh
    obtain ⟨outcome, timers, driver, refreshed⟩ :=
      all.ok_of_handle_refresh later node _ epoch rfl handled
    obtain ⟨_, _, refreshed', _⟩ :=
      alike.driver.refresh request all.driver alone.driver epoch outcome timers driver refreshed
    rw [all.bookings_of_ok node _ [] rfl, alone.bookings_of_ok node _ [] rfl]
    simp only [sequels, refreshed, refreshed', List.filterMap_nil, List.nil_append, List.filter_map,
      now]
    rfl
  · have other (epoch : Nat) : event ≠ .timer (.refresh epoch) := fun same => refresh ⟨epoch, same⟩
    rw [List.filter_eq_self.2 fun booking booked =>
      (concerns_of_bookings request all node event other booking booked).trans mine]
    have happens := alike.effects request all alone node event mine addressed
    have sequels : alone.sequels event = all.sequels event := by
      cases event with
      | timer timer =>
        cases timer with
        | refresh epoch => exact absurd rfl (other epoch)
        | unbind binding => rfl
      | burst id =>
        obtain rfl : id = request.id := of_decide_eq_true mine
        obtain ⟨found, found'⟩ := alike.driver.request?
        simp only [Simulation.sequels, found, found', Option.map_some, nextBurst, now]
      | arrival packet interface => rfl
    unfold Simulation.bookings
    rw [happens, sequels, now, alike.config]

theorem Alike.handle : ∃ last, alone.handle node event = (.ok (), last) ∧ Alike request later last := by
  have result := alike.result request all alone node event mine addressed later handled
  have driver := alike.driver_handle request all alone node event mine addressed later handled
  have bookings := alike.bookings request all alone node event mine addressed later handled now
  have taken : alone.taken node event request.id = all.taken node event request.id := by
    unfold Simulation.taken
    rw [alike.effects request all alone node event mine addressed]
  obtain ⟨found, found'⟩ := alike.driver.request?
  have config := all.config_handle node event
  have gains := all.gains_handle alike.ordered node event
  have sent := all.sent_handle node event request.id
  have counters := all.requestStats_handle node event request.id
  rw [handled] at config gains sent counters
  have gains' := alone.gains_handle alike.ordered' node event
  have settings : (alone.handle node event).2.driver.config = alone.driver.config :=
    congrArg Prod.fst (alone.setting_handle node event)
  refine ⟨(alone.handle node event).2, Prod.ext result rfl, ?_⟩
  exact {
    config := by rw [alone.config_handle, config, alike.config]
    driver
    ordered := gains.ordered
    ordered' := gains'.ordered
    booked := by
      rw [gains'.placed, gains.placed, bookings, alike.booked,
        Booking.filter_foldl_place _ (all.queue.sorted_booked alike.ordered)]
    addressed := by
      intro booking waits
      rw [settings]
      rcases List.mem_append.1 (gains'.booked.mem_iff.1 waits) with fresh | stays
      · exact addressed_of_bookings request alone node event alike.driver.requests addressed booking
          fresh
      · exact alike.addressed booking stays
    sent := by rw [alone.sent_handle, sent, alike.sent, found, found']
    counted := by
      rw [counters, Option.isSome_map]
      exact alike.counted
    counters := by rw [alone.requestStats_handle, counters, alike.counters, taken, found, found'] }

end
end

section
variable [SnapshotSource σ] (request : Request) (all alone : Simulation σ)
  (alike : Alike request all alone) (horizon : Nat)
include alike

omit [SnapshotSource σ] in
theorem Alike.pop (key : EventKey) (event : Event) (queue : EventQueue)
    (popped : all.queue.popUntil horizon = some (key, event, queue))
    (mine : event.concerns request = true) :
    ∃ own rest, alone.queue.popUntil horizon = some (own, event, rest) ∧ own.node = key.node ∧
      (alone.pop event rest).now = (all.pop event queue).now ∧
      Booking.Addressed ⟨own.node, (alone.pop event rest).now, event⟩ request
        alone.driver.config.forwarding ∧
      Alike request (all.pop event queue) (alone.pop event rest) := by
  have out := all.queue.popped_of_popUntil queue horizon key event popped
  obtain ⟨inOrder, _, _⟩ := all.queue.ordered_of_popped queue alike.ordered horizon key event out
  have waits := alike.booked
  rw [all.queue.booked_of_popUntil queue horizon key event popped,
    List.filter_cons_of_pos (by exact mine)] at waits
  obtain ⟨own, rest, popped', same, later⟩ :=
    alone.queue.exists_popUntil_of_booked horizon _ _ waits out.due
  have out' := alone.queue.popped_of_popUntil rest horizon own _ popped'
  obtain ⟨inOrder', _, _⟩ := alone.queue.ordered_of_popped rest alike.ordered' horizon own _ out'
  have place : own.node = key.node := congrArg Booking.node same
  have time : own.time = key.time := congrArg Booking.time same
  refine ⟨own, rest, popped', place, ?_, ?_, ?_⟩
  · exact out'.now.trans (time.trans out.now.symm)
  · have due : (alone.pop event rest).now = own.time := out'.now
    rw [due]
    exact alike.addressed _ (by rw [waits, ← same]; exact List.mem_cons_self)
  · exact { alike with
      ordered := inOrder
      ordered' := inOrder'
      booked := later
      addressed := fun booking stays =>
        alike.addressed booking (by rw [waits]; exact List.mem_cons_of_mem _ (later ▸ stays)) }

omit [SnapshotSource σ] in
theorem Alike.pop_other (key : EventKey) (event : Event) (queue : EventQueue)
    (popped : all.queue.popUntil horizon = some (key, event, queue))
    (other : event.concerns request = false) : Alike request (all.pop event queue) alone := by
  have out := all.queue.popped_of_popUntil queue horizon key event popped
  obtain ⟨inOrder, _, _⟩ := all.queue.ordered_of_popped queue alike.ordered horizon key event out
  have waits := alike.booked
  rw [all.queue.booked_of_popUntil queue horizon key event popped,
    List.filter_cons_of_neg (by exact Bool.eq_false_iff.1 other)] at waits
  exact { alike with
    ordered := inOrder
    booked := waits }

theorem Alike.step_eq_none (finished : all.queue.popUntil horizon = none) :
    alone.step horizon = none ∧ Alike request (all.advance horizon) (alone.advance horizon) := by
  have after := (all.queue.popUntil_eq_none horizon).1 finished
  have after' : ∀ entry ∈ alone.queue.waiting, horizon < entry.1.time := by
    intro entry waits
    have booked : Booking.ofEntry entry ∈ alone.queue.booked := List.mem_map_of_mem waits
    rw [alike.booked] at booked
    obtain ⟨entry', waits', same⟩ := List.mem_map.1 (List.mem_of_mem_filter booked)
    have time : entry'.1.time = entry.1.time := congrArg Booking.time same
    exact time ▸ after entry' waits'
  constructor
  · rw [step, (alone.queue.popUntil_eq_none horizon).2 after']
  · exact { alike with
      ordered := all.queue.ordered_advanceTo alike.ordered horizon fun entry waits =>
        Nat.le_of_lt (after entry waits)
      ordered' := alone.queue.ordered_advanceTo alike.ordered' horizon fun entry waits =>
        Nat.le_of_lt (after' entry waits) }

end

/-- A run of all requests that comes to its horizon is matched by the run of one of them. -/
theorem Alike.runWithin [SnapshotSource σ] (request : Request) (horizon allowance : Nat)
    (all alone later : Simulation σ) (alike : Alike request all alone)
    (ran : all.runWithin horizon allowance = (.finished, later)) :
    ∃ last, alone.runWithin horizon allowance = (.finished, last) ∧ Alike request later last := by
  -- An event of the request is a step of both runs, any other one only of the run of all.
  induction allowance generalizing all alone with
  | zero => cases ran
  | succ allowance ih =>
    cases popped : all.queue.popUntil horizon with
    | none =>
      rw [all.runWithin_of_step_eq_none horizon allowance (by rw [step, popped])] at ran
      cases ran
      obtain ⟨finished, ends⟩ := alike.step_eq_none request all alone horizon popped
      exact ⟨_, alone.runWithin_of_step_eq_none horizon allowance finished, ends⟩
    | some entry =>
      obtain ⟨key, event, queue⟩ := entry
      have stepped := (all.step_of_popUntil horizon key event queue popped).1
      rcases handled : (all.pop event queue).handle key.node event with ⟨error | ⟨⟩, next⟩
      · rw [handled] at stepped
        rw [all.runWithin_of_step_eq_error horizon allowance error next stepped] at ran
        cases ran
      · rw [handled] at stepped
        rw [all.runWithin_of_step_eq_ok horizon allowance next stepped] at ran
        cases mine : event.concerns request with
        | true =>
          obtain ⟨own, rest, popped', place, now, addressed, before⟩ :=
            alike.pop request all alone horizon key event queue popped mine
          rw [place] at addressed
          obtain ⟨last, handled', after⟩ := before.handle request _ _ key.node event mine addressed
            next handled now
          have stepped' := (alone.step_of_popUntil horizon own event rest popped').1
          rw [place, handled'] at stepped'
          rw [alone.runWithin_of_step_eq_ok horizon allowance last stepped']
          exact ih next last after ran
        | false =>
          have before := alike.pop_other request all alone horizon key event queue popped mine
          have after := before.handle_other request _ _ key.node event mine next _ handled
          obtain ⟨last, ran', ends⟩ := ih next alone after ran
          refine ⟨last, ?_, ends⟩
          rw [alone.runWithin_add horizon allowance 1 (by simp [ran']), ran']

theorem alike_start (config : SimulationConfig) (source : σ) (roles : NodeRoles)
    (requests : List Request) (positions : BitPositions)
    (distinct : requests.Pairwise fun one other => one.id % 2 ^ 32 ≠ other.id % 2 ^ 32)
    (request : Request) (member : request ∈ requests) :
    Alike request (start config source roles requests positions)
      (start config source roles [request] positions) := by
  have apart : requests.Pairwise fun one other => one.id ≠ other.id :=
    distinct.imp fun different same => different (congrArg (· % 2 ^ 32) same)
  have given : (start config source roles requests positions).requestStats[request.id]? = some _ :=
    addCounters_of_mem requests apart ∅ request member
  exact {
    config := rfl
    driver := RefreshDriver.alike_start config.refresh source roles requests positions
      (distinct.imp fun different => Request.separate_of_ids _ _ different) request member
    ordered := (gains_start config source roles requests positions).ordered
    ordered' := (gains_start config source roles [request] positions).ordered
    booked := by
      have sorted := EventQueue.empty.sorted_booked EventQueue.ordered_empty
      have only := Request.filter_key (·.id) requests apart request member
      let burst (request : Request) : Booking :=
        ⟨some request.source, request.start, .burst request.id⟩
      have bursts : ((requests.filter (·.duration ≠ 0)).map burst).filter
          (·.event.concerns request) = ([request].filter (·.duration ≠ 0)).map burst := by
        rw [← only, List.filter_map, List.filter_filter, List.filter_filter]
        congr 1
        exact List.filter_congr fun other _ => Bool.and_comm _ _
      rw [(gains_start config source roles requests positions).placed,
        (gains_start config source roles [request] positions).placed,
        Booking.filter_foldl_place _ sorted]
      exact congrArg (fun bursts => List.foldl Booking.place _ (_ :: bursts)) bursts.symm
    addressed := by
      intro booking waits packet interface arrives
      rcases List.mem_cons.1 ((booked_start config source roles [request] positions).mem_iff.1 waits)
        with rfl | waits
      · cases arrives
      · obtain ⟨other, _, rfl⟩ := List.mem_map.1 waits
        cases arrives
    sent := rfl
    counted := by
      rw [given]
      rfl
    counters := (addCounters_of_mem [request] (List.pairwise_singleton _ _) ∅ request
      List.mem_cons_self).trans given.symm }

/-- If a run of all requests comes to a horizon without error, so does the run of any one of them alone,
with the same settings, source and positions and within the same allowance of events, and it gives the
request the same counters. -/
theorem exists_runWithin_alone [SnapshotSource σ] (config : SimulationConfig) (source : σ)
    (roles : NodeRoles) (requests : List Request) (positions : BitPositions)
    (distinct : requests.Pairwise fun one other => one.id % 2 ^ 32 ≠ other.id % 2 ^ 32)
    (request : Request) (member : request ∈ requests) (horizon allowance : Nat)
    (all : Simulation σ)
    (ran : (start config source roles requests positions).runWithin horizon allowance =
      (.finished, all)) :
    ∃ alone stats,
      (start config source roles [request] positions).runWithin horizon allowance =
        (.finished, alone) ∧
      all.requestStats[request.id]? = some stats ∧
      alone.requestStats[request.id]? = some stats := by
  have alike := alike_start config source roles requests positions distinct request member
  obtain ⟨alone, ran', ends⟩ := alike.runWithin request horizon allowance _ _ all ran
  obtain ⟨stats, given⟩ := Option.isSome_iff_exists.1 ends.counted
  exact ⟨alone, stats, ran', given, ends.counters.trans given⟩

def sharedRun (requests : List Request) : Simulation SnapshotPlan :=
  start { refresh := { interval := 10, finish := 30 }, linkLatency := 2 } (.diamond 10)
    (.terrestrial 4) requests .empty

theorem exists_runWithin_alone_shared :
    ∃ all alone stats, (sharedRun RefreshDriver.diamondRequests).runWithin 30 20 = (.finished, all) ∧
      (sharedRun (RefreshDriver.diamondRequests.take 1)).runWithin 30 20 = (.finished, alone) ∧
      all.stats.packetsSent = 2 ∧ alone.requestStats[4]? = some stats ∧
      all.requestStats[4]? = some stats ∧ stats.sent = 1 ∧ stats.delivered = 1 := by
  have ran := (sharedRun RefreshDriver.diamondRequests).runWithin_of_logUntil 30 19
    (by decide +kernel) (by decide +kernel)
  have sent : ((sharedRun RefreshDriver.diamondRequests).logUntil 30 19).2.stats.packetsSent = 2 := by
    decide +kernel
  have counters : ((sharedRun RefreshDriver.diamondRequests).logUntil 30 19).2.requestStats[4]? =
      some ⟨1, 1, 1⟩ := by decide +kernel
  obtain ⟨alone, stats, ran', all, own⟩ := exists_runWithin_alone _ _ _ _ _ (by decide)
    RefreshDriver.diamondRequests[0] (by decide) 30 20 _ ran
  cases counters.symm.trans all
  exact ⟨_, alone, _, ran, ran', sent, own, all, rfl, rfl⟩

end Simulation
end Multicast
