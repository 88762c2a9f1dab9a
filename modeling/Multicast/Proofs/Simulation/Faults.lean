import Multicast.Proofs.Simulation.Foreseen
import Multicast.Proofs.Simulation.Refreshes
import Multicast.Proofs.Simulation.Termination

/-!
Faults of runs. As long as nothing has failed, every event that waits is about a request of the run, the
refresh that waits is in time, and packets find a snapshot in force. Main statement: the first error of
a run on a network of known size is one of those it is prepared for, and packets only ever fail in a
run with bitstrings.
-/

namespace Multicast
open Std

def Booking.Known {σ : Type} (booking : Booking) (driver : RefreshDriver σ) : Prop :=
  match booking.event with
  | .timer _ => True
  | .burst id => ∃ request ∈ driver.requests, request.id = id
  | .arrival packet _ => ∃ node < driver.roles.nodeCount, booking.node = some node ∧
    ∃ request ∈ driver.requests, packet.Belongs request driver.config.forwarding

/-- The refreshes that wait: one at most, which is in time; and the first one, at the start, as long as
nothing is in force. -/
structure RefreshDriver.Timely {σ : Type} (driver : RefreshDriver σ) (times : List (Nat × Nat)) :
    Prop where
  single : times.length ≤ 1
  follows : ∀ entry ∈ times, driver.follows entry.2 = .ok ()
  begun : driver.snapshot = none → ∃ epoch, (0, epoch) ∈ times

namespace RefreshDriver
section
variable {σ : Type} (driver : RefreshDriver σ)

theorem Timely.of_perm (times others : List (Nat × Nat)) (timely : driver.Timely times)
    (perm : others.Perm times) : driver.Timely others where
  single := perm.length_eq ▸ timely.single
  follows entry waits := timely.follows entry (perm.mem_iff.1 waits)
  begun absent := (timely.begun absent).imp fun _ waits => perm.mem_iff.2 waits

theorem lt_of_nextEpoch? (interval : 0 < driver.config.interval) (epoch next : Nat)
    (sets : driver.nextEpoch? epoch = some next) : epoch < next := by
  unfold nextEpoch? instantAfter at sets
  dsimp only at sets
  split at sets
  · rename_i inside
    cases sets
    simp only [Bool.and_eq_true, Bool.not_eq_true', decide_eq_true_eq] at inside
    have finish : driver.config.finishInstant ≤ lastInstant := Nat.min_le_right _ _
    omega
  · cases sets

end

section
variable {σ : Type} (driver later : RefreshDriver σ) (same : later.setting = driver.setting)
include same

theorem Planned.of_setting (planned : driver.Planned) : later.Planned := by
  simp only [setting, Prod.mk.injEq] at same
  obtain ⟨config, roles, requests, positions⟩ := same
  constructor
  · exact requests ▸ planned.distinct
  · rw [requests, roles]
    exact planned.within
  · exact config ▸ planned.interval
  · rw [config, positions]
    exact planned.inverse

theorem known_of_setting (booking : Booking) (known : booking.Known driver) :
    booking.Known later := by
  simp only [setting, Prod.mk.injEq] at same
  obtain ⟨config, roles, requests, _⟩ := same
  unfold Booking.Known at known ⊢
  rwa [config, roles, requests]

end
end RefreshDriver

namespace Simulation
variable {σ : Type} [SnapshotSource σ]

/-- Nothing has failed so far, and nothing unforeseen waits. -/
structure Orderly (source : σ) (simulation : Simulation σ) : Prop where
  ordered : simulation.queue.Ordered
  planned : simulation.driver.Planned
  whole : simulation.driver.Whole
  sized : SnapshotSource.Sized simulation.driver.roles.nodeCount source
  read : ∃ epochs, simulation.driver.source = SnapshotSource.afterAll source epochs
  timely : simulation.driver.Timely (refreshTimes simulation.queue.booked)
  known : ∀ booking ∈ simulation.queue.booked, booking.Known simulation.driver

section
variable (source : σ) (simulation later : Simulation σ) (orderly : simulation.Orderly source)
  (horizon : Nat) (key : EventKey) (event : Event) (queue : EventQueue)
  (popped : simulation.queue.Popped horizon key event queue)
include orderly popped

theorem known_of_popped : (Booking.ofEntry (key, event)).Known simulation.driver :=
  orderly.known _ (popped.booked.mem_iff.2 List.mem_cons_self)

/-- The first refresh comes before every packet. -/
theorem held_of_popped (packet : event.IsPacket) : simulation.driver.snapshot.isSome = true := by
  obtain ⟨inOrder, _, ranked⟩ :=
    simulation.queue.ordered_of_popped queue orderly.ordered horizon key event popped
  cases held : simulation.driver.snapshot with
  | some snapshot => rfl
  | none =>
    exfalso
    obtain ⟨epoch, waits⟩ := orderly.timely.begun held
    have times := popped.refreshTimes_perm _ _ _ _ _
    rw [refresh?_eq_none _ (not_refresh_of_isPacket event packet)] at times
    obtain ⟨entry, stays, time, refresh⟩ :=
      exists_refresh_waiting queue 0 epoch (times.mem_iff.1 waits)
    -- It waits for the start, and within an instant refreshes come before packets.
    obtain ⟨notAfter, lower⟩ := popped.first entry stays
    have atStart : key.time = entry.1.time := by omega
    have rank := lower atStart
    rw [ranked, inOrder.ranked entry stays, refresh] at rank
    rcases packet with network | traffic
    · rw [network] at rank
      exact Nat.not_succ_le_self 1 rank
    · rw [traffic] at rank
      exact Nat.not_succ_le_zero 1 (Nat.le_of_succ_le_succ rank)

theorem allows_of_popped (packet : event.IsPacket) :
    ∃ request ∈ simulation.driver.requests, simulation.driver.Allows request
      ((simulation.pop event queue).effects key.node event) := by
  have held := held_of_popped source simulation orderly horizon key event queue popped packet
  have known := known_of_popped source simulation orderly horizon key event queue popped
  cases event with
  | timer timer => simp [Event.IsPacket, Event.priority] at packet
  | burst id =>
    obtain ⟨request, listed, rfl⟩ := known
    have found := simulation.driver.request?_of_mem
      (orderly.planned.distinct.imp fun apart same => apart (congrArg (· % 2 ^ 32) same)) request listed
    refine ⟨request, listed, ?_⟩
    rw [(simulation.pop (.burst request.id) queue).effects_of_request? _ _ request found]
    exact simulation.driver.allows_emit orderly.whole orderly.planned held request listed _ _
  | arrival arrived interface =>
    obtain ⟨node, within, here, request, listed, belongs⟩ := known
    refine ⟨request, listed, ?_⟩
    have there : key.node = some node := here
    rw [there]
    exact simulation.driver.allows_receive orderly.whole orderly.planned held request listed node within
      arrived belongs

theorem timely_of_popped (epoch : Nat) (refresh : event = .timer (.refresh epoch)) :
    simulation.driver.follows epoch = .ok () ∧ refreshTimes queue.booked = [] := by
  have times := popped.refreshTimes_perm _ _ _ _ _
  subst refresh
  refine ⟨orderly.timely.follows (key.time, epoch) (times.mem_iff.2 List.mem_cons_self), ?_⟩
  have single := orderly.timely.single
  rw [times.length_eq] at single
  change (refreshTimes queue.booked).length + 1 ≤ 1 at single
  exact List.eq_nil_of_length_eq_zero (by omega)

theorem foreseen_of_handle (error : SimulationError)
    (failed : (simulation.pop event queue).handle key.node event = (.error error, later)) :
    error.Foreseen simulation.driver.config.forwarding simulation.driver.requests
      simulation.driver.positions := by
  by_cases packet : event.IsPacket
  · obtain ⟨request, _, allows⟩ :=
      allows_of_popped source simulation orderly horizon key event queue popped packet
    have result := (simulation.pop event queue).result_handle key.node event
      (not_refresh_of_isPacket event packet)
    rw [failed] at result
    cases happens : (simulation.pop event queue).effects key.node event with
    | error other =>
      rw [happens] at result allows
      cases result
      exact allows
    | ok effects =>
      rw [happens] at result
      cases result
  · have ends := (simulation.pop event queue).ends_handle key.node event
    rw [failed] at ends
    cases ends with
    | unrefreshed epoch error driver refresh =>
      obtain ⟨follows, _⟩ :=
        timely_of_popped source simulation orderly horizon key _ queue popped epoch rfl
      obtain ⟨epochs, read⟩ := orderly.read
      rcases simulation.driver.snapshot_or_tree_of_refresh_error source epochs orderly.sized read
        orderly.planned.inverse epoch follows driver error refresh with
        ⟨fault, rfl⟩ | ⟨routed, fault, rfl⟩
      · exact .snapshot fault
      · exact .tree fault routed
    | unknown => exact absurd (.inr rfl) packet
    | unsent => exact absurd (.inr rfl) packet
    | unreceived => exact absurd (.inl rfl) packet

theorem known_of_bookings (booking : Booking)
    (booked : booking ∈ (simulation.pop event queue).bookings key.node event) :
    booking.Known simulation.driver := by
  rcases (simulation.pop event queue).copy_or_sequel_of_mem_bookings key.node event booking booked with
    ⟨effects, receiver, interface, copy, happens, sent, rfl⟩ | sequel
  · have packet : event.IsPacket := by
      cases event with
      | timer timer =>
        cases happens
        cases sent
      | burst id => exact .inr rfl
      | arrival packet interface => exact .inl rfl
    obtain ⟨request, listed, allows⟩ :=
      allows_of_popped source simulation orderly horizon key event queue popped packet
    rw [happens] at allows
    obtain ⟨within, belongs⟩ := allows _ sent receiver interface copy rfl
    exact ⟨receiver, within, rfl, request, listed, belongs⟩
  · have known := known_of_popped source simulation orderly horizon key event queue popped
    rcases (simulation.pop event queue).event_of_sequels event booking sequel with
      ⟨_, timer, _, same⟩ | ⟨id, rfl, same⟩
    · unfold Booking.Known
      rw [same]
      trivial
    · unfold Booking.Known
      rw [same]
      exact known

section
variable (handled : (simulation.pop event queue).handle key.node event = (.ok (), later))
include handled

theorem timely_of_refresh (epoch : Nat) (refresh : event = .timer (.refresh epoch)) :
    later.driver.Timely (refreshTimes later.queue.booked) := by
  obtain ⟨follows, none⟩ :=
    timely_of_popped source simulation orderly horizon key event queue popped epoch refresh
  have waits := booked_of_handle simulation later orderly.ordered horizon key event queue popped _ handled
  obtain ⟨outcome, timers, driver, refreshed⟩ :=
    (simulation.pop event queue).ok_of_handle_refresh later key.node event epoch refresh handled
  have after := (simulation.pop event queue).driver_handle key.node event
  subst refresh
  rw [handled] at after
  obtain rfl : later.driver = driver := after.trans (congrArg Prod.snd refreshed)
  have times := waits.filterMap Booking.refresh?
  change (refreshTimes _).Perm (refreshTimes (_ ++ _)) at times
  rw [refreshTimes_append, none, List.append_nil, (simulation.pop _ queue).refreshTimes_bookings_refresh
    key.node epoch outcome timers later.driver refreshed] at times
  obtain ⟨snapshot, _, _, _, held, last, _, _⟩ :=
    simulation.driver.exists_snapshot_of_refresh later.driver epoch outcome timers refreshed
  refine ⟨?_, fun entry waits => ?_, fun absent => ?_⟩
  · rw [times.length_eq, List.length_map]
    cases (simulation.pop (.timer (.refresh epoch)) queue).driver.nextEpoch? epoch <;> simp
  · obtain ⟨next, sets, rfl⟩ := List.mem_map.1 (times.mem_iff.1 waits)
    have next := simulation.driver.lt_of_nextEpoch? orderly.planned.interval epoch _ (Option.mem_toList.1 sets)
    simp only [RefreshDriver.follows, last, if_neg (Nat.not_le_of_lt next)]
  · rw [held] at absent
    cases absent

theorem Orderly.step : later.Orderly source := by
  obtain ⟨rest, _, _⟩ :=
    simulation.queue.ordered_of_popped queue orderly.ordered horizon key event popped
  have gains := (simulation.pop event queue).gains_handle rest key.node event
  have same := (simulation.pop event queue).setting_handle key.node event
  have driver := (simulation.pop event queue).driver_handle key.node event
  have waits := booked_of_handle simulation later orderly.ordered horizon key event queue popped _ handled
  rw [handled] at gains same driver
  have roles : later.driver.roles = simulation.driver.roles :=
    congrArg (fun setting => setting.2.1) same
  have known : ∀ booking ∈ later.queue.booked, booking.Known later.driver := by
    intro booking booked
    refine simulation.driver.known_of_setting later.driver same booking ?_
    rcases List.mem_append.1 (waits.mem_iff.1 booked) with fresh | stays
    · exact known_of_bookings source simulation orderly horizon key event queue popped booking fresh
    · exact orderly.known booking (popped.booked.mem_iff.2 (List.mem_cons_of_mem _ stays))
  have planned := orderly.planned.of_setting simulation.driver later.driver same
  have sized : SnapshotSource.Sized later.driver.roles.nodeCount source := roles ▸ orderly.sized
  by_cases refresh : ∃ epoch, event = .timer (.refresh epoch)
  · obtain ⟨epoch, refresh⟩ := refresh
    have timely := timely_of_refresh source simulation later orderly horizon key event queue popped
      handled epoch refresh
    obtain ⟨follows, _⟩ :=
      timely_of_popped source simulation orderly horizon key event queue popped epoch refresh
    obtain ⟨outcome, timers, driver', refreshed⟩ :=
      (simulation.pop event queue).ok_of_handle_refresh later key.node event epoch refresh handled
    subst refresh
    obtain ⟨epochs, read⟩ := orderly.read
    have whole := simulation.driver.whole_refresh source epochs orderly.sized read
      orderly.planned.inverse epoch orderly.whole
      (fun _ => orderly.planned.distinct.imp fun apart => Request.separate_of_ids _ _ apart)
      driver' outcome timers refreshed
    obtain rfl : later.driver = driver' := driver.trans (congrArg Prod.snd refreshed)
    refine ⟨gains.ordered, planned, whole, sized, ⟨epochs ++ [epoch], ?_⟩, timely, known⟩
    rw [driver]
    change (simulation.driver.refresh epoch).2.source = _
    rw [simulation.driver.source_refresh epoch follows, read, SnapshotSource.afterAll,
      SnapshotSource.afterAll, List.foldl_append]
    rfl
  · have other (epoch : Nat) : event ≠ .timer (.refresh epoch) := fun same => refresh ⟨epoch, same⟩
    have times := refreshTimes_of_handle simulation later orderly.ordered horizon key event queue popped
      _ handled other
    cases event with
    | timer timer =>
      cases timer with
      | refresh epoch => exact absurd rfl (other epoch)
      | unbind binding =>
        have timely : (simulation.driver.unbind binding).Timely _ :=
          ⟨orderly.timely.single, orderly.timely.follows, orderly.timely.begun⟩
        refine ⟨gains.ordered, planned, ?_, sized, ?_, ?_, known⟩
        · exact driver ▸ simulation.driver.whole_unbind orderly.whole binding
        · exact driver ▸ orderly.read
        · exact driver ▸ timely.of_perm _ _ _ times
    | burst id =>
      exact ⟨gains.ordered, planned, driver ▸ orderly.whole, sized, driver ▸ orderly.read,
        driver ▸ orderly.timely.of_perm _ _ _ times, known⟩
    | arrival packet interface =>
      exact ⟨gains.ordered, planned, driver ▸ orderly.whole, sized, driver ▸ orderly.read,
        driver ▸ orderly.timely.of_perm _ _ _ times, known⟩

end
end

theorem Orderly.advance (source : σ) (simulation : Simulation σ) (orderly : simulation.Orderly source)
    (horizon : Nat) (finished : simulation.queue.popUntil horizon = none) :
    (simulation.advance horizon).Orderly source :=
  { orderly with
    ordered := simulation.queue.ordered_advanceTo orderly.ordered horizon fun entry waits =>
      Nat.le_of_lt ((simulation.queue.popUntil_eq_none horizon).1 finished entry waits) }

/-- A run from an orderly state stays orderly, or fails with an error that is foreseen. -/
theorem foreseen_or_orderly_of_runWithin (source : σ) (horizon allowance : Nat)
    (simulation : Simulation σ) (orderly : simulation.Orderly source) :
    (∀ error, (simulation.runWithin horizon allowance).1 = .failed error →
      error.Foreseen simulation.driver.config.forwarding simulation.driver.requests
        simulation.driver.positions) ∧
      ((∀ error, (simulation.runWithin horizon allowance).1 ≠ .failed error) →
        (simulation.runWithin horizon allowance).2.Orderly source ∧
          (simulation.runWithin horizon allowance).2.driver.setting = simulation.driver.setting) := by
  induction allowance generalizing simulation with
  | zero => exact ⟨by rintro _ ⟨⟩, fun _ => ⟨orderly, rfl⟩⟩
  | succ allowance ih =>
    cases popped : simulation.queue.popUntil horizon with
    | none =>
      rw [simulation.runWithin_of_step_eq_none horizon allowance (by rw [step, popped])]
      exact ⟨by rintro _ ⟨⟩,
        fun _ => ⟨orderly.advance source simulation horizon popped, rfl⟩⟩
    | some entry =>
      obtain ⟨key, event, queue⟩ := entry
      have out := simulation.queue.popped_of_popUntil queue horizon key event popped
      have stepped := (simulation.step_of_popUntil horizon key event queue popped).1
      rcases handled : (simulation.pop event queue).handle key.node event with ⟨error | ⟨⟩, later⟩
      · rw [handled] at stepped
        rw [simulation.runWithin_of_step_eq_error horizon allowance error later stepped]
        refine ⟨?_, fun unfailed => absurd rfl (unfailed error)⟩
        rintro _ ⟨⟩
        exact foreseen_of_handle source simulation later orderly horizon key event queue out error handled
      · rw [handled] at stepped
        rw [simulation.runWithin_of_step_eq_ok horizon allowance later stepped]
        have after :=
          Orderly.step source simulation later orderly horizon key event queue out handled
        have same := (simulation.pop event queue).setting_handle key.node event
        rw [handled] at same
        obtain ⟨foreseen, keeps⟩ := ih later after
        refine ⟨fun error failed => ?_, fun unfailed => ?_⟩
        · have fault := foreseen error failed
          simp only [RefreshDriver.setting, Prod.mk.injEq] at same
          obtain ⟨config, _, requests, positions⟩ := same
          rw [config, requests, positions] at fault
          exact fault
        · obtain ⟨orderly', same'⟩ := keeps unfailed
          exact ⟨orderly', same'.trans same⟩

/-- The run is reached from the first one by running it to any horizons within any allowances, and
nothing has failed on the way. -/
inductive Unfailed (first : Simulation σ) : Simulation σ → Prop where
  | start : Unfailed first first
  | run (simulation later : Simulation σ) (horizon allowance : Nat) (result : RunResult)
    (earlier : Unfailed first simulation)
    (ran : simulation.runWithin horizon allowance = (result, later))
    (unfailed : ∀ error, result ≠ .failed error) : Unfailed first later

theorem orderly_of_unfailed (source : σ) (first simulation : Simulation σ)
    (orderly : first.Orderly source) (unfailed : first.Unfailed simulation) :
    simulation.Orderly source ∧ simulation.driver.setting = first.driver.setting := by
  induction unfailed with
  | start => exact ⟨orderly, rfl⟩
  | run simulation later horizon allowance result _ ran unfailed ih =>
    have after :=
      (foreseen_or_orderly_of_runWithin source horizon allowance simulation ih.1).2
        (by rwa [ran])
    rw [ran] at after
    exact ⟨after.1, after.2.trans ih.2⟩

theorem orderly_start (config : SimulationConfig) (source : σ) (roles : NodeRoles)
    (requests : List Request) (positions : BitPositions)
    (planned : (RefreshDriver.start config.refresh source roles requests positions).Planned)
    (sized : SnapshotSource.Sized roles.nodeCount source) :
    (start config source roles requests positions).Orderly source where
  ordered := (gains_start config source roles requests positions).ordered
  planned
  whole := RefreshDriver.whole_start config.refresh source roles requests positions
  sized
  read := ⟨[], rfl⟩
  timely := by
    have first := (paced_start config source roles requests positions).waiting
    rw [RefreshConfig.upcoming, if_pos (.inl rfl), Nat.zero_mul] at first
    rw [first]
    exact ⟨Nat.le_refl 1, fun _ _ => rfl, fun _ => ⟨0, List.mem_cons_self⟩⟩
  known := by
    intro booking waits
    rcases List.mem_cons.1 ((booked_start config source roles requests positions).mem_iff.1 waits) with
      rfl | waits
    · trivial
    · obtain ⟨request, listed, rfl⟩ := List.mem_map.1 waits
      exact ⟨request, List.mem_of_mem_filter listed, rfl⟩

/-- On a network of known size, the first error of a run is that a refresh finds no snapshot, that it
finds no tree for a request, or that a bitstring lacks the position of a destination or has one that a
node has no way for. Only with route tables there are trees to find, and only with bitstrings a packet
can fail at all. If the positions are those that a run numbers by itself, no destination lacks one. -/
theorem foreseen_of_failed (config : SimulationConfig) (source : σ) (roles : NodeRoles)
    (requests : List Request) (positions : BitPositions)
    (distinct : requests.Pairwise fun one other => one.id % 2 ^ 32 ≠ other.id % 2 ^ 32)
    (within : ∀ request ∈ requests, request.source < roles.nodeCount)
    (sized : SnapshotSource.Sized roles.nodeCount source) (interval : 0 < config.refresh.interval)
    (assigned : config.refresh.forwarding = .bier → positions.Assigned) (simulation : Simulation σ)
    (unfailed : (start config source roles requests positions).Unfailed simulation)
    (horizon allowance : Nat) (error : SimulationError) (failed : Simulation σ)
    (ran : simulation.runWithin horizon allowance = (.failed error, failed)) :
    error.Foreseen config.refresh.forwarding requests positions ∧
      (BitPositions.sequential (ExperimentConfig.destinations requests) = .ok positions →
        ∀ node, error ≠ .bier (.unassignedNode node)) := by
  have planned : (RefreshDriver.start config.refresh source roles requests positions).Planned :=
    ⟨distinct, within, interval, fun bier => positions.inverse_of_assigned (assigned bier)⟩
  obtain ⟨orderly, same⟩ := orderly_of_unfailed source _ simulation
    (orderly_start config source roles requests positions planned sized) unfailed
  have foreseen := (foreseen_or_orderly_of_runWithin source horizon allowance simulation orderly).1
    error (by rw [ran])
  simp only [RefreshDriver.setting, Prod.mk.injEq] at same
  obtain ⟨settings, _, listed, given⟩ := same
  rw [settings, listed, given] at foreseen
  refine ⟨foreseen, ?_⟩
  rintro numbered node rfl
  cases foreseen with
  | unassigned _ _ request listed member absent =>
    obtain ⟨position, found⟩ :=
      positions.exists_position_of_destinations requests numbered request listed node member
    cases found.symm.trans absent

end Simulation

def SnapshotPlan.fading (change : Nat) : SnapshotPlan :=
  ⟨fun epoch => .ok { Snapshot.diamond epoch 1 with
    nextHops := if epoch < change then (Snapshot.diamond epoch 1).nextHops else .empty }⟩

namespace Simulation

def fadingRun : Simulation SnapshotPlan :=
  start { refresh := { interval := 10, finish := 30, forwarding := .bier }, linkLatency := 7 }
    (.fading 10) (.terrestrial 4) diamondSchedule
    ((BitPositions.sequential (ExperimentConfig.destinations diamondSchedule)).toOption.getD .empty)

/-- The packet is sent while there is a way, and when it is to leave node 1 there is none. -/
theorem foreseen_of_failed_fading :
    ∃ middle failed, fadingRun.runWithin 9 4 = (.finished, middle) ∧
      middle.runWithin 30 4 = (.failed (.bier (.unknownBitPosition 1 1)), failed) ∧
      (SimulationError.bier (.unknownBitPosition 1 1)).Foreseen .bier diamondSchedule
        fadingRun.driver.positions := by
  have comes := fadingRun.runWithin_of_logUntil 9 3 (by decide +kernel) (by decide +kernel)
  obtain ⟨failed, fails⟩ := exists_runWithin_of_logUntil
    ((fadingRun.logUntil 9 3).2.advance 9) 30 4 (.bier (.unknownBitPosition 1 1)) (by decide +kernel)
  have sized : SnapshotSource.Sized (NodeRoles.terrestrial 4).nodeCount (SnapshotPlan.fading 10) := by
    refine SnapshotPlan.sized _ _ fun epoch snapshot yields => ?_
    cases yields
    exact ⟨rfl, (Snapshot.sized_diamond epoch 1).made⟩
  have positions : BitPositions.sequential (ExperimentConfig.destinations diamondSchedule) =
      .ok fadingRun.driver.positions := by decide +kernel
  have foreseen := foreseen_of_failed _ (.fading 10) (.terrestrial 4) diamondSchedule _
    (by decide) (by decide) sized (by decide)
    (fun _ => BitPositions.assigned_sequential _ _ positions) _
    (.run fadingRun _ 9 4 .finished .start comes (by simp)) 30 4 _ failed fails
  exact ⟨_, failed, comes, fails, foreseen.1⟩

end Simulation
end Multicast
