import Multicast.Proofs.Simulation.Course

/-!
Tallies. Handling an event counts every effect on a packet in one counter of the run, and whatever the
event itself stands for. Main statement: the counters after an event are told by the event and by the
state it finds.
-/

namespace Multicast
open Std

def Event.isTimer : Event → Bool
  | .timer _ => true
  | _ => false

def Event.isBurst : Event → Bool
  | .burst _ => true
  | _ => false

def Event.isArrival : Event → Bool
  | .arrival _ _ => true
  | _ => false

def Effect.isCopy : Effect → Bool
  | .copy _ _ _ => true
  | _ => false

def Stats.after (stats : Stats) (effects : List Effect) : Stats :=
  { stats with
    copiesForwarded := stats.copiesForwarded + effects.countP (·.isCopy)
    packetsDelivered := stats.packetsDelivered + effects.countP (· = .deliver)
    droppedNoRoute := stats.droppedNoRoute + effects.countP (· = .noRoute)
    droppedExpired := stats.droppedExpired + effects.countP (· = .expired)
    droppedUnresolved := stats.droppedUnresolved + effects.countP (· = .unresolved) }

theorem Stats.after_append (stats : Stats) (effects more : List Effect) :
    stats.after (effects ++ more) = (stats.after effects).after more := by
  simp only [after, List.countP_append, Nat.add_assoc]

namespace Simulation
variable {σ : Type}

theorem stats_applyEffects (simulation : Simulation σ) (request : RequestId)
    (effects : List Effect) :
    (simulation.applyEffects request effects).stats = simulation.stats.after effects := by
  induction effects generalizing simulation with
  | nil => rfl
  | cons effect rest ih =>
    have later := ih (applyEffect request simulation effect)
    have first : (applyEffect request simulation effect).stats = simulation.stats.after [effect] := by
      cases effect <;> rfl
    calc
      _ = (applyEffect request simulation effect).stats.after rest := later
      _ = simulation.stats.after ([effect] ++ rest) := by rw [first, ← Stats.after_append]

def happenings (simulation : Simulation σ) (node : Option NodeId) (event : Event) : List Effect :=
  match simulation.effects node event with
  | .ok effects => effects
  | .error _ => []

def outcome? [SnapshotSource σ] (simulation : Simulation σ) : Event → Option RefreshOutcome
  | .timer (.refresh epoch) =>
    match (simulation.driver.refresh epoch).1 with
    | .error _ => none
    | .ok (outcome, _) => some outcome
  | _ => none

def removals (simulation : Simulation σ) : Event → Nat
  | .timer (.unbind binding) => if simulation.driver.bindings.isStale binding then 1 else 0
  | _ => 0

def emissions (simulation : Simulation σ) : Event → Nat
  | .burst id => if (simulation.driver.request? id).isSome then 1 else 0
  | _ => 0

/-- The counters after an event, as the event and the state it finds tell them. -/
def tally [SnapshotSource σ] (simulation : Simulation σ) (node : Option NodeId) (event : Event) :
    Stats :=
  { simulation.stats.after (simulation.happenings node event) with
    refreshes := simulation.stats.refreshes + (simulation.outcome? event).toList.length
    entriesInstalled := simulation.stats.entriesInstalled +
      ((simulation.outcome? event).map RefreshOutcome.entriesInstalled).getD 0
    bindingsRemoved := simulation.stats.bindingsRemoved + simulation.removals event
    packetsSent := simulation.stats.packetsSent + simulation.emissions event }

theorem stats_handle [SnapshotSource σ] (simulation : Simulation σ) (node : Option NodeId)
    (event : Event) : (simulation.handle node event).2.stats = simulation.tally node event := by
  have ways := simulation.ends_handle node event
  generalize (simulation.handle node event).1 = result at ways
  generalize (simulation.handle node event).2 = later at ways ⊢
  cases ways with
  | unrefreshed epoch error driver refresh =>
    simp only [tally, outcome?, refresh]
    rfl
  | refreshed epoch outcome timers driver refresh =>
    simp only [tally, outcome?, refresh]
    rfl
  | unbound binding => rfl
  | unknown id found =>
    simp only [tally, happenings, effects, emissions, found]
    rfl
  | unsent id request error found emit =>
    have failed := (simulation.effects_of_request? node id request found).trans emit
    simp only [tally, happenings, emissions, failed, found]
    rfl
  | sent id request effects found emit =>
    have happens := (simulation.effects_of_request? node id request found).trans emit
    rw [stats_scheduleNext, stats_applyEffects]
    simp only [tally, happenings, emissions, happens, found]
    rfl
  | stray packet interface nowhere =>
    subst nowhere
    rfl
  | unreceived receiver packet interface error here receive =>
    subst here
    simp only [tally, happenings, effects, receive]
    rfl
  | received receiver packet interface effects here receive =>
    subst here
    rw [stats_applyEffects]
    simp only [tally, happenings, Simulation.effects, receive]
    rfl

end Simulation
end Multicast
