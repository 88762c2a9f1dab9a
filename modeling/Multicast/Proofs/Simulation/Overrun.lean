import Multicast.Proofs.Request
import Multicast.Proofs.Simulation.Termination

/-!
Times that a run adds up. A span is added to the clock for every timer that a refresh sets, for every
copy that crosses a link and for the burst after a burst. A sum beyond the longest time aborts the run.
Main statement: a run whose settings leave room for its last timer and its last copy ends at every
horizon without such a sum.
-/

namespace Multicast
open Std

/-- The longest time: as many seconds as 64 bits count and, in nanoseconds, almost another one. -/
def longestTime : Nat := UInt64.size * 1000000000 - 1

namespace SimulationConfig

/-- An instant that no copy arrives after: the hop limit allows for the links behind the first one. -/
def lastArrival (config : SimulationConfig) : Nat :=
  lastInstant + max 1 config.hopLimit * config.linkLatency

structure Fits (config : SimulationConfig) (horizon : Nat) : Prop where
  removals : min horizon lastInstant + config.refresh.grace ≤ longestTime
  arrivals : min (horizon + config.linkLatency) config.lastArrival ≤ longestTime

end SimulationConfig

namespace Simulation
variable {σ : Type} [SnapshotSource σ]

end Simulation

/-! ## Bookings in time -/

/-- An event is booked in time: a refresh for its epoch, a burst for an instant, and an arrival so early
that the last copy of the packet is not late. -/
def Booking.InTime (config : SimulationConfig) (booking : Booking) : Prop :=
  match booking.event with
  | .timer (.refresh epoch) => booking.time = epoch ∧ epoch ≤ lastInstant
  | .timer (.unbind _) => True
  | .burst _ => booking.time ≤ lastInstant
  | .arrival packet _ =>
    booking.time + (packet.hopLimit - 1) * config.linkLatency ≤ config.lastArrival

theorem RefreshDriver.eq_of_nextEpoch? {σ : Type} (driver : RefreshDriver σ) (epoch next : Nat)
    (sets : driver.nextEpoch? epoch = some next) :
    next = epoch + driver.config.interval ∧ next ≤ lastInstant := by
  have finish : driver.config.finishInstant ≤ lastInstant := Nat.min_le_right _ _
  unfold nextEpoch? instantAfter at sets
  dsimp only at sets
  split at sets
  · rename_i inside
    cases sets
    simp only [Bool.and_eq_true, decide_eq_true_eq] at inside
    omega
  · cases sets

namespace Simulation
variable {σ : Type} [SnapshotSource σ]

section
variable (config : SimulationConfig) (simulation : Simulation σ) (set : simulation.config = config)
  (settings : simulation.driver.config = config.refresh) (key : EventKey) (event : Event)
  (now : simulation.now = key.time) (inTime : (Booking.ofEntry (key, event)).InTime config)
include set now inTime

omit [SnapshotSource σ] in
theorem arrival_inTime (effects : List Effect) (receiver : NodeId) (interface : InterfaceId)
    (packet : Packet) (happens : simulation.effects key.node event = .ok effects)
    (sent : .copy receiver interface packet ∈ effects) :
    simulation.now + config.linkLatency + (packet.hopLimit - 1) * config.linkLatency ≤
      config.lastArrival := by
  have links : simulation.now + config.linkLatency + (packet.hopLimit - 1) * config.linkLatency =
      key.time + (1 + (packet.hopLimit - 1)) * config.linkLatency := by
    rw [now, Nat.add_mul, Nat.one_mul, Nat.add_assoc]
  rw [links]
  -- A burst leaves all links to the copy, and an arrival has crossed one of those that it had.
  cases event with
  | timer timer =>
    cases happens
    cases sent
  | burst id =>
    have early : key.time ≤ lastInstant := inTime
    unfold Simulation.effects at happens
    dsimp only at happens
    split at happens
    · cases happens
    · have whole := simulation.driver.hopLimit_of_emit _ _ _ _ happens receiver interface packet sent
      rw [whole, set]
      exact Nat.add_le_add early (Nat.mul_le_mul_right _ (by omega))
  | arrival arrived entered =>
    have early : key.time + (arrived.hopLimit - 1) * config.linkLatency ≤ config.lastArrival := inTime
    cases place : key.node with
    | none =>
      rw [place] at happens
      cases happens
      cases sent
    | some node =>
      rw [place] at happens
      obtain ⟨header, forwarded⟩ := simulation.driver.exists_forwarded?_of_receive node receiver
        arrived packet interface effects happens sent
      obtain ⟨left, rfl⟩ := (arrived.forwarded?_eq_some packet header).1 forwarded
      have fewer : 1 + (arrived.hopLimit - 1 - 1) = arrived.hopLimit - 1 := by omega
      dsimp only
      rwa [fewer]

include settings

omit set in
theorem timer_of_refresh (epoch : Nat) (refresh : event = .timer (.refresh epoch))
    (outcome : RefreshOutcome) (timers : List TimerRequest) (driver : RefreshDriver σ)
    (refreshed : simulation.driver.refresh epoch = (.ok (outcome, timers), driver))
    (asked : TimerRequest) (sets : asked ∈ timers) :
    key.time ≤ lastInstant ∧
      ((∃ binding, asked = ⟨.unbind binding, config.refresh.grace⟩) ∨
        ∃ next ≤ lastInstant, simulation.now + asked.delay = next ∧ asked.timer = .refresh next) := by
  subst refresh
  obtain ⟨own, early⟩ : key.time = epoch ∧ epoch ≤ lastInstant := inTime
  obtain ⟨_, _, stale, _, _, _, _, rfl⟩ :=
    simulation.driver.exists_snapshot_of_refresh driver epoch outcome timers refreshed
  refine ⟨own.trans_le early, ?_⟩
  cases List.mem_append.1 sets with
  | inl removal =>
    obtain ⟨binding, _, rfl⟩ := List.mem_map.1 removal
    rw [settings]
    exact .inl ⟨binding, rfl⟩
  | inr again =>
    obtain ⟨next, upcoming, rfl⟩ := List.mem_map.1 again
    obtain ⟨after, inside⟩ :=
      simulation.driver.eq_of_nextEpoch? epoch next (Option.mem_toList.1 upcoming)
    exact .inr ⟨next, inside, by rw [now, own, after], rfl⟩

theorem inTime_of_mem_bookings (booking : Booking)
    (booked : booking ∈ simulation.bookings key.node event) : booking.InTime config := by
  rcases simulation.copy_or_sequel_of_mem_bookings key.node event booking booked with
    ⟨effects, receiver, interface, packet, happens, sent, rfl⟩ | sequel
  · have early := arrival_inTime config simulation set key event now inTime effects receiver interface
      packet happens sent
    rwa [← set] at early ⊢
  · cases event with
    | timer timer =>
      cases timer with
      | refresh epoch =>
        unfold sequels at sequel
        dsimp only at sequel
        split at sequel
        · cases sequel
        · rename_i outcome timers refreshed
          obtain ⟨asked, sets, rfl⟩ := List.mem_map.1 sequel
          obtain ⟨_, ways⟩ := timer_of_refresh config simulation settings key _ now inTime epoch rfl
            outcome timers _ (Prod.ext refreshed rfl) asked sets
          rcases ways with ⟨binding, rfl⟩ | ⟨next, inside, time, again⟩
          · trivial
          · simp only [Booking.InTime, again]
            exact ⟨time, inside⟩
      | unbind binding => cases sequel
    | burst id =>
      obtain ⟨request, _, _, early⟩ := simulation.time_of_burst_sequel id booking sequel
      have finish : request.finish ≤ lastInstant := Nat.min_le_right _ _
      rcases simulation.event_of_sequels _ booking sequel with ⟨_, _, absurd, _⟩ | ⟨_, _, same⟩
      · cases absurd
      · simp only [Booking.InTime, same]
        omega
    | arrival packet interface => cases sequel

end

structure Punctual (config : SimulationConfig) (requests : List Request) (simulation : Simulation σ) :
    Prop where
  ordered : simulation.queue.Ordered
  set : simulation.config = config
  settings : simulation.driver.config = config.refresh
  listed : simulation.driver.requests = requests
  inTime : ∀ booking ∈ simulation.queue.booked, booking.InTime config

section
variable (config : SimulationConfig) (requests : List Request) (simulation : Simulation σ)
  (punctual : simulation.Punctual config requests) (horizon : Nat) (key : EventKey) (event : Event)
  (queue : EventQueue) (popped : simulation.queue.popUntil horizon = some (key, event, queue))
include punctual popped

omit [SnapshotSource σ] in
theorem Punctual.inTime_of_popUntil : (Booking.ofEntry (key, event)).InTime config := by
  have out := simulation.queue.popped_of_popUntil queue horizon key event popped
  exact punctual.inTime _ (out.booked.mem_iff.2 List.mem_cons_self)

theorem Punctual.handle :
    ((simulation.pop event queue).handle key.node event).2.Punctual config requests := by
  have out := simulation.queue.popped_of_popUntil queue horizon key event popped
  obtain ⟨rest, _, _⟩ :=
    simulation.queue.ordered_of_popped queue punctual.ordered horizon key event out
  have gains := (simulation.pop event queue).gains_handle rest key.node event
  have setting := (simulation.pop event queue).setting_handle key.node event
  have own := punctual.inTime_of_popUntil config requests simulation horizon key event queue popped
  constructor
  case ordered => exact gains.ordered
  case set => exact ((simulation.pop event queue).config_handle key.node event).trans punctual.set
  case settings => exact (congrArg Prod.fst setting).trans punctual.settings
  case listed => exact (congrArg (fun setting => setting.2.2.1) setting).trans punctual.listed
  case inTime =>
    intro booking waits
    cases List.mem_append.1 ((gains.booked _ _ _).mem_iff.1 waits) with
    | inl fresh =>
      exact inTime_of_mem_bookings config (simulation.pop event queue) punctual.set punctual.settings key
        event out.now own booking fresh
    | inr stays => exact punctual.inTime booking (out.booked.mem_iff.2 (List.mem_cons_of_mem _ stays))

end

end Simulation
end Multicast
