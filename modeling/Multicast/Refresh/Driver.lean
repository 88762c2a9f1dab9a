import Multicast.Bier.Build
import Multicast.Refresh.Bindings
import Multicast.Refresh.Config
import Multicast.Route.State

/-!
The refresh driver owns the forwarding state of all nodes and rebuilds it for each epoch. A refresh
loads the snapshot of its epoch, builds the state of every request active in it, and only then puts
it in place. A failed refresh leaves the state as it was, and no further refresh is set.
-/

namespace Multicast

structure RefreshDriver (σ : Type) where
  config : RefreshConfig
  source : σ
  roles : NodeRoles
  requests : List Request
  positions : BitPositions
  routing : RoutingState
  bierTables : List BierTable
  bindings : LinkBindings
  snapshot : Option Snapshot
  state : RefreshState
  lastEpoch : Option Nat
  refreshes : Nat

/-- The state that a refresh builds before it puts it in place. -/
structure Generation where
  routing : RoutingState
  bierTables : List BierTable
  entries : Nat
  bindings : List LinkBinding

namespace Tree

def binding (tree : Tree) (hop : Hop) : LinkBinding :=
  ⟨tree.group, hop.sender, hop.outInterface, hop.receiver, hop.inInterface⟩

def bindings (tree : Tree) (roles : NodeRoles) : List LinkBinding :=
  (tree.hops.toList.filter fun hop => roles.crossesGroundLink hop.sender hop.receiver).map
    tree.binding

end Tree

namespace Generation

def addTree (roles : NodeRoles) (snapshot : Snapshot) (generation : Generation)
    (request : Request) : Except RefreshError Generation :=
  match Tree.build request snapshot with
  | .error error => .error (.tree error)
  | .ok tree =>
    match generation.routing.installTree tree with
    | .error error => .error (.route error)
    | .ok (routing, installed) =>
      .ok { generation with
        routing
        entries := generation.entries + installed
        bindings := generation.bindings ++ tree.bindings roles }

end Generation

namespace RefreshDriver
variable {σ : Type}

def start (config : RefreshConfig) (source : σ) (roles : NodeRoles) (requests : List Request)
    (positions : BitPositions) : RefreshDriver σ where
  config
  source
  roles
  requests
  positions
  routing := .empty roles.nodeCount
  bierTables := []
  bindings := .empty
  snapshot := none
  state := .idle
  lastEpoch := none
  refreshes := 0

def bierTable? (driver : RefreshDriver σ) (node : NodeId) : Option BierTable :=
  driver.bierTables[node]?

def windowEnd (driver : RefreshDriver σ) (epoch : Nat) : Nat :=
  if driver.config.forceStatic then driver.config.finishInstant
  else instantAfter epoch driver.config.interval

def activeRequests (driver : RefreshDriver σ) (epoch : Nat) : List Request :=
  driver.requests.filter (·.activeDuring epoch (driver.windowEnd epoch))

/-- The state for an epoch. What the other way of forwarding uses stays as it is. -/
def build (driver : RefreshDriver σ) (snapshot : Snapshot) (active : List Request) :
    Except RefreshError Generation :=
  match driver.config.forwarding with
  | .routeTable =>
    active.foldlM (Generation.addTree driver.roles snapshot)
      ⟨.empty driver.roles.nodeCount, driver.bierTables, 0, []⟩
  | .bier =>
    match BierTable.buildAll snapshot driver.positions with
    | .error error => .error (.bier error)
    | .ok tables => .ok ⟨driver.routing, tables, total (tables.map BierTable.size), []⟩

def nextEpoch? (driver : RefreshDriver σ) (epoch : Nat) : Option Nat :=
  let next := instantAfter epoch driver.config.interval
  if !driver.config.forceStatic && next < driver.config.finishInstant then some next else none

def timers (driver : RefreshDriver σ) (stale : List LinkBinding) (next : Option Nat) :
    List TimerRequest :=
  stale.map (fun binding => ⟨.unbind binding, driver.config.grace⟩) ++
    next.toList.map fun epoch => ⟨.refresh epoch, driver.config.interval⟩

def install (driver : RefreshDriver σ) (epoch : Nat) (snapshot : Snapshot) (activeCount : Nat)
    (generation : Generation) : RefreshOutcome × List TimerRequest × RefreshDriver σ :=
  let (bindings, created) := driver.bindings.beginGeneration.bindAll generation.bindings
  let stale := bindings.newlyStale
  let next := driver.nextEpoch? epoch
  let outcome : RefreshOutcome := {
    epoch
    activeRequests := activeCount
    entriesInstalled := generation.entries
    bindingsCreated := created
    bindingsStale := stale.length
    nextEpoch := next }
  let installed := { driver with
    routing := generation.routing
    bierTables := generation.bierTables
    bindings
    snapshot := some snapshot
    state := match next with
      | none => .idle
      | some later => .scheduled later
    lastEpoch := some epoch
    refreshes := driver.refreshes + 1 }
  (outcome, driver.timers stale next, installed)

def follows (driver : RefreshDriver σ) (epoch : Nat) : Except RefreshError Unit :=
  match driver.lastEpoch with
  | none => .ok ()
  | some previous => if epoch ≤ previous then .error (.epochNotIncreasing previous epoch) else .ok ()

def refresh [SnapshotSource σ] (driver : RefreshDriver σ) (epoch : Nat) :
    Except RefreshError (RefreshOutcome × List TimerRequest) × RefreshDriver σ :=
  match driver.follows epoch with
  | .error error => (.error error, driver)
  | .ok () =>
    match SnapshotSource.load driver.source epoch with
    | (.error error, source) => (.error (.snapshot error), { driver with source, state := .idle })
    | (.ok snapshot, source) =>
      let loaded := { driver with source, state := .idle }
      let active := driver.activeRequests epoch
      match driver.build snapshot active with
      | .error error => (.error error, loaded)
      | .ok generation =>
        let (outcome, timers, installed) := loaded.install epoch snapshot active.length generation
        (.ok (outcome, timers), installed)

def unbind (driver : RefreshDriver σ) (binding : LinkBinding) : RefreshDriver σ :=
  { driver with bindings := driver.bindings.unbindIfStale binding }

end RefreshDriver
end Multicast
