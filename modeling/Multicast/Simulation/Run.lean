import Multicast.Event.Queue
import Multicast.Simulation.Forwarding
import Multicast.Simulation.Stats

/-!
Runs. A run takes events from the queue one by one. A refresh rebuilds the forwarding state, a burst
makes a source send its next packet and sets the burst after it, and an arrival is forwarded or
delivered. An event that fails ends the run; the queue has lost it, and the clock stands at it.
-/

namespace Multicast
open Std

structure SimulationConfig where
  refresh : RefreshConfig := {}
  linkLatency : Nat := 1000000
  hopLimit : Nat := defaultHopLimit
deriving DecidableEq

structure Simulation (σ : Type) where
  config : SimulationConfig
  queue : EventQueue
  driver : RefreshDriver σ
  /-- The number of packets each source has sent for a request. -/
  sequences : ExtTreeMap RequestId Nat
  stats : Stats
  requestStats : ExtTreeMap RequestId RequestStats

inductive RunResult where
  /-- No event is left before the horizon. -/
  | finished
  | failed (error : SimulationError)
  /-- The allowance of events is used up. -/
  | exhausted
deriving DecidableEq

namespace Simulation
variable {σ : Type}

/-- Set the first burst of a request; a request of no duration has none. -/
def scheduleFirst (queue : EventQueue) (request : Request) : EventQueue :=
  if request.duration = 0 then queue
  else queue.schedule (some request.source) request.start (.burst request.id)

def start (config : SimulationConfig) (source : σ) (roles : NodeRoles) (requests : List Request)
    (positions : BitPositions) : Simulation σ where
  config
  queue := requests.foldl scheduleFirst (EventQueue.empty.schedule none 0 (.timer (.refresh 0)))
  driver := .start config.refresh source roles requests positions
  sequences := ∅
  stats := {}
  requestStats := requests.foldl (fun table request =>
    table.insert request.id { destinations := request.destinations.size }) ∅

def now (simulation : Simulation σ) : Nat := simulation.queue.now

def pending (simulation : Simulation σ) : Nat := simulation.queue.size

def changeStats (simulation : Simulation σ) (change : Stats → Stats) : Simulation σ :=
  { simulation with stats := change simulation.stats }

def changeRequestStats (simulation : Simulation σ) (request : RequestId)
    (change : RequestStats → RequestStats) : Simulation σ :=
  { simulation with requestStats := simulation.requestStats.modify request change }

def applyEffect (request : RequestId) (simulation : Simulation σ) : Effect → Simulation σ
  | .deliver =>
    (simulation.changeStats fun stats =>
        { stats with packetsDelivered := stats.packetsDelivered + 1 }).changeRequestStats request
      fun stats => { stats with delivered := stats.delivered + 1 }
  | .copy receiver interface packet =>
    let sent := simulation.changeStats fun stats =>
      { stats with copiesForwarded := stats.copiesForwarded + 1 }
    { sent with
      queue := sent.queue.schedule (some receiver) (sent.now + sent.config.linkLatency)
        (.arrival packet interface) }
  | .noRoute => simulation.changeStats fun stats =>
      { stats with droppedNoRoute := stats.droppedNoRoute + 1 }
  | .expired => simulation.changeStats fun stats =>
      { stats with droppedExpired := stats.droppedExpired + 1 }
  | .unresolved => simulation.changeStats fun stats =>
      { stats with droppedUnresolved := stats.droppedUnresolved + 1 }

def applyEffects (simulation : Simulation σ) (request : RequestId) (effects : List Effect) :
    Simulation σ :=
  effects.foldl (applyEffect request) simulation

def handleRefresh [SnapshotSource σ] (simulation : Simulation σ) (epoch : Nat) :
    Except SimulationError Unit × Simulation σ :=
  match simulation.driver.refresh epoch with
  | (.error error, driver) => (.error (.refresh error), { simulation with driver })
  | (.ok (outcome, timers), driver) =>
    let refreshed : Simulation σ := { simulation with
      driver
      queue := timers.foldl (fun queue asked => queue.setTimer asked.timer asked.delay)
        simulation.queue }
    (.ok (), refreshed.changeStats fun stats =>
      { stats with
        refreshes := stats.refreshes + 1
        entriesInstalled := stats.entriesInstalled + outcome.entriesInstalled })

def handleUnbind (simulation : Simulation σ) (binding : LinkBinding) : Simulation σ :=
  let unbound := { simulation with driver := simulation.driver.unbind binding }
  if simulation.driver.bindings.isStale binding then
    unbound.changeStats fun stats => { stats with bindingsRemoved := stats.bindingsRemoved + 1 }
  else unbound

def countSent (simulation : Simulation σ) (request : RequestId) (sequence : Nat) : Simulation σ :=
  ({ simulation with sequences := simulation.sequences.insert request (sequence + 1) }.changeStats
      fun stats => { stats with packetsSent := stats.packetsSent + 1 }).changeRequestStats request
    fun stats => { stats with sent := stats.sent + 1 }

def scheduleNext (simulation : Simulation σ) (request : Request) : Simulation σ :=
  let next := simulation.now + request.packetGap
  if next < request.finish then
    { simulation with
      queue := simulation.queue.schedule (some request.source) next (.burst request.id) }
  else simulation

def handleBurst (simulation : Simulation σ) (id : RequestId) :
    Except SimulationError Unit × Simulation σ :=
  match simulation.driver.request? id with
  | none => (.error (.unknownRequest id), simulation)
  | some request =>
    let sequence := simulation.sequences[id]?.getD 0
    let counted := simulation.countSent id sequence
    match simulation.driver.emit request simulation.config.hopLimit sequence with
    | .error error => (.error error, counted)
    | .ok effects => (.ok (), (counted.applyEffects id effects).scheduleNext request)

def handleArrival (simulation : Simulation σ) (node : NodeId) (packet : Packet) :
    Except SimulationError Unit × Simulation σ :=
  match simulation.driver.receive node packet with
  | .error error => (.error error, simulation)
  | .ok effects => (.ok (), simulation.applyEffects packet.request effects)

def handle [SnapshotSource σ] (simulation : Simulation σ) (node : Option NodeId) :
    Event → Except SimulationError Unit × Simulation σ
  | .timer (.refresh epoch) => simulation.handleRefresh epoch
  | .timer (.unbind binding) => (.ok (), simulation.handleUnbind binding)
  | .burst request => simulation.handleBurst request
  | .arrival packet _ =>
    match node with
    | none => (.ok (), simulation)
    | some node => simulation.handleArrival node packet

def countEvent (simulation : Simulation σ) (event : Event) : Simulation σ :=
  simulation.changeStats fun stats =>
    { stats with
      events := stats.events + 1
      byPriority := stats.byPriority.count event.priority }

def step [SnapshotSource σ] (simulation : Simulation σ) (horizon : Nat) :
    Option (Except SimulationError Unit × Simulation σ) :=
  match simulation.queue.popUntil horizon with
  | none => none
  | some (key, event, queue) =>
    some (({ simulation with queue }.countEvent event).handle key.node event)

/-- Handle events up to the horizon, at most as many as the allowance. In the end the clock stands at
the horizon. -/
def runWithin [SnapshotSource σ] (horizon : Nat) :
    (allowance : Nat) → Simulation σ → RunResult × Simulation σ
  | 0, simulation => (.exhausted, simulation)
  | allowance + 1, simulation =>
    match simulation.step horizon with
    | none => (.finished, { simulation with queue := simulation.queue.advanceTo horizon })
    | some (.error error, failed) => (.failed error, failed)
    | some (.ok (), later) => runWithin horizon allowance later

/-- A run counts its events in 64 bits, so it has no more of them. -/
def eventAllowance : Nat := UInt64.size

def runUntil [SnapshotSource σ] (simulation : Simulation σ) (horizon : Nat) :
    RunResult × Simulation σ :=
  simulation.runWithin horizon eventAllowance

def run [SnapshotSource σ] (simulation : Simulation σ) : RunResult × Simulation σ :=
  simulation.runUntil simulation.config.refresh.finish

end Simulation
end Multicast
