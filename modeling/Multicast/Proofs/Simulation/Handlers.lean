import Multicast.Simulation.Run
import Multicast.Proofs.Refresh.History
import Multicast.Proofs.Request
import Multicast.Proofs.Simulation.Effects

/-!
Handlers. What handling an event leaves as it was, and what it does to the copies in the queue and to
the counters. Effects only add the copies they send; timers and bursts add none.
-/

namespace Multicast
open Std

namespace RefreshDriver
variable {σ : Type}

def Placed (driver : RefreshDriver σ) : Prop :=
  ∀ node table, driver.bierTable? node = some table →
    table.localPosition = driver.positions.positionOf? node

theorem placed_refresh [SnapshotSource σ] (driver : RefreshDriver σ) (epoch : Nat)
    (bier : driver.config.forwarding = .bier) (placed : driver.Placed) :
    (driver.refresh epoch).2.Placed := by
  have ways := driver.ends_refresh epoch
  generalize (driver.refresh epoch).1 = result at ways
  generalize (driver.refresh epoch).2 = later at ways ⊢
  cases ways with
  | early => exact placed
  | unloaded => exact placed
  | unbuilt => exact placed
  | built snapshot source generation _ _ build _ _ _ install =>
    cases install
    rw [driver.build_bier snapshot _ bier] at build
    split at build
    · cases build
    · rename_i tables built
      cases build
      exact fun node table found =>
        BierTable.localPosition_buildAll snapshot driver.positions tables built node table found

theorem request?_eq_some (driver : RefreshDriver σ) (id : RequestId) (request : Request)
    (found : driver.request? id = some request) :
    request ∈ driver.requests ∧ request.id = id := by
  have listed := List.mem_filter.1 (List.mem_of_getLast? found)
  exact ⟨listed.1, by simpa using listed.2⟩

theorem request?_of_mem (driver : RefreshDriver σ)
    (distinct : driver.requests.Pairwise fun one other => one.id ≠ other.id) (request : Request)
    (member : request ∈ driver.requests) : driver.request? request.id = some request := by
  cases found : driver.request? request.id with
  | none =>
    unfold request? at found
    rw [List.getLast?_eq_none_iff, List.filter_eq_nil_iff] at found
    exact absurd (decide_eq_true rfl) (found request member)
  | some other =>
    obtain ⟨listed, same⟩ := driver.request?_eq_some _ other found
    rw [Request.eq_of_id driver.requests distinct other request listed member same]

end RefreshDriver

namespace EventQueue

theorem copies_setTimer (queue : EventQueue) (timer : Timer) (delay : Nat) :
    (queue.setTimer timer delay).copies.Subperm queue.copies :=
  copies_schedule { queue with timersSet := queue.timersSet + 1 } none _ (.timer timer)

theorem readable_setTimer (queue : EventQueue) (timer : Timer) (delay : Nat)
    (readable : queue.Readable) : (queue.setTimer timer delay).Readable := by
  apply readable_schedule { queue with timersSet := queue.timersSet + 1 } none _ _ readable
  rintro _ _ ⟨⟩

theorem copies_setTimers (queue : EventQueue) (timers : List TimerRequest) :
    (timers.foldl (fun queue asked => queue.setTimer asked.timer asked.delay) queue).copies.Subperm
      queue.copies := by
  induction timers generalizing queue with
  | nil => exact .refl _
  | cons asked rest ih => exact (ih _).trans (queue.copies_setTimer asked.timer asked.delay)

theorem readable_setTimers (queue : EventQueue) (timers : List TimerRequest)
    (readable : queue.Readable) :
    (timers.foldl (fun queue asked => queue.setTimer asked.timer asked.delay) queue).Readable := by
  induction timers generalizing queue with
  | nil => exact readable
  | cons asked rest ih => exact ih _ (queue.readable_setTimer asked.timer asked.delay readable)

end EventQueue

namespace Simulation
variable {σ : Type}

structure Applied (request : RequestId) (effects : List Effect) (simulation later : Simulation σ) :
    Prop where
  driver : later.driver = simulation.driver
  sequences : later.sequences = simulation.sequences
  events : later.stats.events = simulation.stats.events
  copies : later.queue.copies.Subperm (effects.filterMap Effect.copy? ++ simulation.queue.copies)
  readable (readable : simulation.queue.Readable) (fresh : ∀ effect ∈ effects, effect.Readable) :
    later.queue.Readable
  requestStats (other : RequestId) : later.requestStats[other]? =
    simulation.requestStats[other]?.map fun stats =>
      { stats with delivered := stats.delivered +
          if request = other then effects.countP (· = .deliver) else 0 }

theorem applied_nil (simulation : Simulation σ) (request : RequestId) :
    Applied request [] simulation simulation where
  driver := rfl
  sequences := rfl
  events := rfl
  copies := .refl _
  readable readable _ := readable
  requestStats other := by simp

theorem applied_cons (simulation middle later : Simulation σ) (request : RequestId)
    (effect : Effect) (effects : List Effect) (first : Applied request [effect] simulation middle)
    (rest : Applied request effects middle later) :
    Applied request (effect :: effects) simulation later where
  driver := rest.driver.trans first.driver
  sequences := rest.sequences.trans first.sequences
  events := rest.events.trans first.events
  copies := by
    have parted : (effect :: effects).filterMap Effect.copy? =
        [effect].filterMap Effect.copy? ++ effects.filterMap Effect.copy? :=
      List.filterMap_append (l := [effect])
    refine (rest.copies.trans ((List.subperm_append_left _).2 first.copies)).trans
      (List.Perm.subperm ?_)
    rw [parted, ← List.append_assoc]
    exact List.perm_append_comm.append_right _
  readable readable fresh := rest.readable
    (first.readable readable fun effect member => fresh effect (by simp_all))
    fun effect member => fresh effect (List.mem_cons_of_mem _ member)
  requestStats other := by
    rw [rest.requestStats, first.requestStats, Option.map_map]
    refine congrArg (Option.map · _) (funext fun stats => ?_)
    by_cases same : request = other
    · simp [same, List.countP_cons, Nat.add_assoc, Nat.add_comm]
    · simp [same]

theorem applied_changeStats (simulation : Simulation σ) (request : RequestId) (effect : Effect)
    (change : Stats → Stats) (events : (change simulation.stats).events = simulation.stats.events)
    (other : effect ≠ .deliver) :
    Applied request [effect] simulation (simulation.changeStats change) where
  driver := rfl
  sequences := rfl
  events := events
  copies := (List.sublist_append_right _ _).subperm
  readable readable _ := readable
  requestStats other := by simp [changeStats, *]

theorem applied_deliver (simulation : Simulation σ) (request : RequestId) :
    Applied request [.deliver] simulation (applyEffect request simulation .deliver) where
  driver := rfl
  sequences := rfl
  events := rfl
  copies := .refl _
  readable readable _ := readable
  requestStats other := by
    simp only [applyEffect, changeStats, changeRequestStats, ExtTreeMap.getElem?_modify,
      Std.compare_eq_iff_eq]
    by_cases same : request = other
    · simp [same]
    · simp [same]

theorem applied_copy (simulation : Simulation σ) (request : RequestId) (receiver : NodeId)
    (interface : InterfaceId) (packet : Packet) :
    Applied request [.copy receiver interface packet] simulation
      (applyEffect request simulation (.copy receiver interface packet)) where
  driver := rfl
  sequences := rfl
  events := rfl
  copies := by
    have sent : [Effect.copy receiver interface packet].filterMap Effect.copy? =
        (Event.arrival packet interface).copy?.toList := by
      cases carried : packet.copy? with
      | none => simp [Effect.copy?, Event.copy?, carried]
      | some copy => simp [Effect.copy?, Event.copy?, carried]
    rw [sent]
    exact simulation.queue.copies_schedule _ _ _
  readable readable fresh := by
    apply simulation.queue.readable_schedule _ _ _ readable
    rintro _ _ ⟨⟩
    exact fresh _ List.mem_cons_self _ _ _ rfl
  requestStats other := by simp [applyEffect, changeStats]

theorem applied_applyEffect (simulation : Simulation σ) (request : RequestId) (effect : Effect) :
    Applied request [effect] simulation (applyEffect request simulation effect) := by
  cases effect with
  | deliver => exact simulation.applied_deliver request
  | copy receiver interface packet => exact simulation.applied_copy request receiver interface packet
  | noRoute =>
    exact simulation.applied_changeStats request .noRoute
      (fun stats => { stats with droppedNoRoute := stats.droppedNoRoute + 1 }) rfl (by simp)
  | expired =>
    exact simulation.applied_changeStats request .expired
      (fun stats => { stats with droppedExpired := stats.droppedExpired + 1 }) rfl (by simp)
  | unresolved =>
    exact simulation.applied_changeStats request .unresolved
      (fun stats => { stats with droppedUnresolved := stats.droppedUnresolved + 1 }) rfl (by simp)

theorem applied_applyEffects (simulation : Simulation σ) (request : RequestId)
    (effects : List Effect) :
    Applied request effects simulation (simulation.applyEffects request effects) := by
  induction effects generalizing simulation with
  | nil => exact simulation.applied_nil request
  | cons effect rest ih =>
    exact applied_cons _ _ _ request effect rest (simulation.applied_applyEffect request effect)
      (ih (applyEffect request simulation effect))

end Simulation
end Multicast
