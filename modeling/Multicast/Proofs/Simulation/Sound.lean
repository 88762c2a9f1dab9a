import Multicast.Proofs.Simulation.Flight
import Multicast.Proofs.Simulation.Handlers

/-!
Sound runs. A run is sound if its copies keep to the rules of a flight, its tables know the positions
of their nodes and its counters say what was sent and delivered. Handling an event keeps a run sound,
where the copy of the event itself has left the queue before.
-/

namespace Multicast
open Std

namespace RefreshDriver
variable {σ : Type}

def taken (driver : RefreshDriver σ) (node : Option NodeId) (event : Event) : List Delivery :=
  match node, event with
  | some node, .arrival packet _ =>
    match packet.copy?, driver.receive node packet with
    | some copy, .ok effects =>
      (effects.filter (· = .deliver)).map fun _ => ⟨copy.request, copy.sequence, node⟩
    | _, _ => []
  | _, _ => []

theorem taken_of_error (driver : RefreshDriver σ) (node : NodeId) (packet : Packet)
    (interface : InterfaceId) (error : SimulationError)
    (received : driver.receive node packet = .error error) :
    driver.taken (some node) (.arrival packet interface) = [] := by
  unfold taken
  cases carried : packet.copy? with
  | none => simp [received]
  | some copy => simp [carried, received]

theorem taken_of_ok (driver : RefreshDriver σ) (node : NodeId) (packet : Packet)
    (interface : InterfaceId) (copy : Copy) (effects : List Effect)
    (carried : packet.copy? = some copy) (received : driver.receive node packet = .ok effects) :
    driver.taken (some node) (.arrival packet interface) =
      (effects.filter (· = .deliver)).map fun _ => ⟨copy.request, copy.sequence, node⟩ := by
  simp only [taken, carried, received]

end RefreshDriver

namespace Simulation
variable {σ : Type}

def sent (simulation : Simulation σ) (request : RequestId) : Nat :=
  simulation.sequences[request]?.getD 0

theorem sent_of_sequences (simulation later : Simulation σ)
    (same : later.sequences = simulation.sequences) (request : RequestId) :
    later.sent request = simulation.sent request := by
  unfold sent
  rw [same]

theorem sent_countSent (simulation : Simulation σ) (id other : RequestId) :
    (simulation.countSent id (simulation.sent id)).sent other =
      simulation.sent other + if id = other then 1 else 0 := by
  simp only [sent, countSent, changeRequestStats, changeStats, ExtTreeMap.getElem?_insert,
    Std.compare_eq_iff_eq]
  by_cases same : id = other
  · simp [same]
  · simp [same]

/-- The run is sound, with the deliveries so far and with copies that have left the queue. -/
structure Sound (requests : List Request) (positions : BitPositions) (log : List Delivery)
    (popped : List Copy) (simulation : Simulation σ) : Prop where
  setting : ∃ config roles, config.forwarding = .bier ∧
    simulation.driver.setting = (config, roles, requests, positions)
  placed : simulation.driver.Placed
  readable : simulation.queue.Readable
  flight : Flight requests positions simulation.sent log (popped ++ simulation.queue.copies)
  accounts : ∀ request ∈ requests, ∃ stats, simulation.requestStats[request.id]? = some stats ∧
    stats.destinations = request.destinations.size ∧ stats.sent = simulation.sent request.id ∧
    stats.delivered = log.countP (·.request = request.id)

namespace Sound
variable {requests : List Request} {positions : BitPositions} {log : List Delivery}
  {popped : List Copy} {simulation : Simulation σ}

theorem bier (sound : Sound requests positions log popped simulation) :
    simulation.driver.config.forwarding = .bier := by
  obtain ⟨config, roles, bier, setting⟩ := sound.setting
  cases setting
  exact bier

theorem requests_eq (sound : Sound requests positions log popped simulation) :
    simulation.driver.requests = requests := by
  obtain ⟨config, roles, _, setting⟩ := sound.setting
  cases setting
  rfl

theorem positions_eq (sound : Sound requests positions log popped simulation) :
    simulation.driver.positions = positions := by
  obtain ⟨config, roles, _, setting⟩ := sound.setting
  cases setting
  rfl

theorem change (sound : Sound requests positions log popped simulation) (later : Simulation σ)
    (setting : later.driver.setting = simulation.driver.setting) (placed : later.driver.Placed)
    (readable : later.queue.Readable) (copies : later.queue.copies.Subperm simulation.queue.copies)
    (sequences : later.sequences = simulation.sequences)
    (requestStats : later.requestStats = simulation.requestStats) :
    Sound requests positions log [] later where
  setting := by
    rw [setting]
    exact sound.setting
  placed := placed
  readable := readable
  flight := by
    have counts : later.sent = simulation.sent := by
      unfold sent
      rw [sequences]
    rw [counts]
    exact sound.flight.of_subperm _ (copies.trans (List.sublist_append_right _ _).subperm)
  accounts := by
    have counts : later.sent = simulation.sent := by
      unfold sent
      rw [sequences]
    rw [requestStats, counts]
    exact sound.accounts

theorem drop (sound : Sound requests positions log popped simulation) :
    Sound requests positions log [] simulation :=
  sound.change simulation rfl sound.placed sound.readable (.refl _) rfl rfl

theorem handleRefresh [SnapshotSource σ] (sound : Sound requests positions log popped simulation)
    (epoch : Nat) : Sound requests positions log [] (simulation.handleRefresh epoch).2 := by
  have setting := simulation.driver.setting_refresh epoch
  have placed := simulation.driver.placed_refresh epoch sound.bier sound.placed
  unfold Simulation.handleRefresh
  rcases refreshed : simulation.driver.refresh epoch with ⟨error | ⟨outcome, timers⟩, driver⟩
  · rw [refreshed] at setting placed
    exact sound.change _ setting placed sound.readable (.refl _) rfl rfl
  · rw [refreshed] at setting placed
    exact sound.change _ setting placed (EventQueue.readable_setTimers _ timers sound.readable)
      (EventQueue.copies_setTimers _ timers) rfl rfl

theorem handleUnbind (sound : Sound requests positions log popped simulation)
    (binding : LinkBinding) : Sound requests positions log [] (simulation.handleUnbind binding) := by
  unfold Simulation.handleUnbind
  dsimp only
  split
  · exact sound.change _ rfl sound.placed sound.readable (.refl _) rfl rfl
  · exact sound.change _ rfl sound.placed sound.readable (.refl _) rfl rfl

theorem scheduleNext (sound : Sound requests positions log popped simulation)
    (request : Request) : Sound requests positions log [] (simulation.scheduleNext request) := by
  unfold Simulation.scheduleNext
  dsimp only
  split
  · refine sound.change _ rfl sound.placed ?_ (simulation.queue.copies_schedule _ _ _) rfl rfl
    apply simulation.queue.readable_schedule _ _ _ sound.readable
    rintro _ _ ⟨⟩
  · exact sound.drop

/-- Effects happen to a run whose copies, with those of the effects, keep to the rules. -/
theorem applyEffects (sound : Sound requests positions log popped simulation) (id : RequestId)
    (effects : List Effect) (new : List Delivery)
    (flight : Flight requests positions simulation.sent (log ++ new)
      (effects.filterMap Effect.copy? ++ simulation.queue.copies))
    (readable : ∀ effect ∈ effects, effect.Readable)
    (counts : ∀ request, new.countP (·.request = request) =
      if id = request then effects.countP (· = .deliver) else 0) :
    Sound requests positions (log ++ new) [] (simulation.applyEffects id effects) := by
  have applied := simulation.applied_applyEffects id effects
  have same : (simulation.applyEffects id effects).sent = simulation.sent := by
    unfold sent
    rw [applied.sequences]
  refine ⟨?_, ?_, applied.readable sound.readable readable, ?_, ?_⟩
  · rw [applied.driver]
    exact sound.setting
  · rw [applied.driver]
    exact sound.placed
  · rw [same]
    exact flight.of_subperm _ applied.copies
  · intro request member
    obtain ⟨stats, found, destinations, sent, delivered⟩ := sound.accounts request member
    rw [applied.requestStats, found, same, List.countP_append, counts, ← delivered]
    exact ⟨_, rfl, destinations, sent, rfl⟩

theorem countSent (sound : Sound requests positions log popped simulation) (id : RequestId) :
    Sound requests positions log popped (simulation.countSent id (simulation.sent id)) := by
  refine ⟨sound.setting, sound.placed, sound.readable, ?_, ?_⟩
  · apply sound.flight.mono
    intro other
    rw [sent_countSent]
    exact Nat.le_add_right _ _
  · intro request member
    obtain ⟨stats, found, destinations, sent, delivered⟩ := sound.accounts request member
    rw [sent_countSent]
    simp only [Simulation.countSent, changeRequestStats, changeStats, ExtTreeMap.getElem?_modify,
      Std.compare_eq_iff_eq]
    by_cases same : id = request.id
    · subst same
      exact ⟨{ stats with sent := stats.sent + 1 }, by simp [found], destinations, by simp [sent],
        delivered⟩
    · exact ⟨stats, by simp [same, found], destinations, by simp [same, sent], delivered⟩

theorem handleBurst (sound : Sound requests positions log popped simulation) (id : RequestId)
    (bounded : simulation.sent id < UInt64.size) :
    Sound requests positions log [] (simulation.handleBurst id).2 := by
  unfold Simulation.handleBurst
  split
  · exact sound.drop
  · rename_i request found
    obtain ⟨known, rfl⟩ := simulation.driver.request?_eq_some id request found
    rw [sound.requests_eq] at known
    have counted := sound.countSent request.id
    unfold RefreshDriver.emit
    rw [sound.bier]
    dsimp only
    split
    · exact counted.drop
    · rename_i effects emitted
      obtain ⟨relayed, bitstring, addressed, split⟩ :=
        simulation.driver.split_of_emitBier request _ _ effects emitted
      rw [sound.positions_eq] at addressed
      have addresses : request.Addresses positions bitstring := by
        intro position inside
        obtain ⟨node, listed, own⟩ := positions.test_bitstringFor _ _ addressed position inside
        exact ⟨node, ExtTreeSet.mem_toList.1 listed, own⟩
      have more (other : RequestId) : simulation.sent other ≤
          (simulation.countSent request.id (simulation.sent request.id)).sent other := by
        rw [sent_countSent]
        exact Nat.le_add_right _ _
      have flight := sound.drop.flight.emit _ more request known (by simp [sent_countSent]) bounded
        bitstring addresses _ split
      have none : effects.countP (· = .deliver) = 0 := by
        rw [List.countP_eq_zero]
        intro effect member
        simpa using (relayed effect member).1
      rw [← List.append_nil log] at flight
      have applied := counted.applyEffects request.id effects [] flight
        (fun effect member => (relayed effect member).2) (fun other => by simp [none])
      rw [List.append_nil] at applied
      exact applied.scheduleNext request

theorem handleArrival (node : NodeId) (packet : Packet) (interface : InterfaceId)
    (sound : Sound requests positions log packet.copy?.toList simulation) :
    Sound requests positions (log ++ simulation.driver.taken (some node) (.arrival packet interface))
      [] (simulation.handleArrival node packet).2 := by
  unfold Simulation.handleArrival
  cases received : simulation.driver.receive node packet with
  | error error =>
    rw [simulation.driver.taken_of_error node packet interface error received, List.append_nil]
    exact sound.drop
  | ok effects =>
    have decided := received
    unfold RefreshDriver.receive at decided
    split at decided
    · cases decided
    · rename_i request found
      obtain ⟨known, same⟩ := simulation.driver.request?_eq_some packet.request request found
      rw [sound.requests_eq] at known
      rw [sound.bier] at decided
      obtain ⟨copy, carried, split, readable, outside, taken⟩ :=
        simulation.driver.split_of_receiveBier node packet _ effects (sound.placed node) decided
      have origin := packet.request_of_copy? copy carried
      have flight := sound.flight
      rw [carried, Option.toList_some, List.singleton_append] at flight
      rw [simulation.driver.taken_of_ok node packet interface copy effects carried received]
      refine sound.applyEffects packet.request effects _ ?_ readable ?_
      · rcases taken with none | ⟨once, member, position, own, inside⟩
        · rw [none, List.map_nil, List.append_nil]
          exact flight.relay copy _ split
        · rw [once]
          refine flight.deliver copy _ split node position ?_ inside (outside position own) ?_
          · rwa [sound.positions_eq] at own
          · exact ⟨request, known, origin.trans same.symm, by simpa using member⟩
      · intro other
        rw [List.countP_map, origin]
        by_cases equal : packet.request = other
        · simp [equal, Function.comp_def, List.countP_eq_length_filter]
        · simp [equal, Function.comp_def]

theorem handle [SnapshotSource σ] (node : Option NodeId) (event : Event)
    (bounded : ∀ request, simulation.sent request < UInt64.size)
    (sound : Sound requests positions log event.copy?.toList simulation) :
    Sound requests positions (log ++ simulation.driver.taken node event) []
      (simulation.handle node event).2 := by
  have nothing (none : simulation.driver.taken node event = []) :
      log ++ simulation.driver.taken node event = log := by rw [none, List.append_nil]
  unfold Simulation.handle
  cases event with
  | timer timer =>
    rw [nothing (by cases node <;> rfl)]
    cases timer with
    | refresh epoch => exact sound.handleRefresh epoch
    | unbind binding => exact sound.handleUnbind binding
  | burst request =>
    rw [nothing (by cases node <;> rfl)]
    exact sound.handleBurst request (bounded request)
  | arrival packet interface =>
    cases node with
    | none =>
      rw [nothing rfl]
      exact sound.drop
    | some node => exact sound.handleArrival node packet interface

end Sound
end Simulation
end Multicast
