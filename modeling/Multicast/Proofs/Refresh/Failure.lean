import Multicast.Simulation.Run
import Multicast.Proofs.Refresh.Decisions
import Multicast.Proofs.Request

/-!
Refreshes that fail. A refresh builds all of the state of its epoch before it puts any of it in place,
so it does not matter how far it has come. Main statement: whatever is wrong with a refresh, it leaves
the tables, the bindings, the snapshot and the epoch of the driver as they were and sets no timer.
-/

namespace Multicast
open Std

/-- The state of a driver whose refresh has failed. A refresh that is not after the last one has not
begun, and any other one leaves the driver idle. -/
def RefreshError.stateAfter (state : RefreshState) : RefreshError → RefreshState
  | .epochNotIncreasing _ _ => state
  | _ => .idle

namespace RoutingState

theorem installTree_eq_error (state : RoutingState) (tree : Tree) (error : RouteError)
    (failed : state.installTree tree = .error error) :
    ∃ node ∈ tree.nodes, state.nodeCount ≤ node ∧ error = .unknownNode node state.nodeCount := by
  have outside : ∃ node ∈ tree.nodes, state.nodeCount ≤ node := by
    by_contra none
    have inside : ∀ node ∈ tree.nodes, node < state.nodeCount := by simpa using none
    rw [(state.installTree_eq_ok _ tree _).2 ⟨inside, rfl, rfl⟩] at failed
    cases failed
  obtain ⟨node, member, beyond, -, refused⟩ := state.exists_of_outside tree outside
  unfold installTree at failed
  rw [refused] at failed
  cases failed
  exact ⟨node, member, beyond, rfl⟩

end RoutingState

namespace Generation

inductive Fault (snapshot : Snapshot) (nodeCount : Nat) (requests : List Request) :
    RefreshError → Prop where
  | treeless (request : Request) (error : TreeError) (member : request ∈ requests)
    (build : Tree.build request snapshot = .error error) :
    Fault snapshot nodeCount requests (.tree error)
  | outside (request : Request) (tree : Tree) (node : NodeId) (member : request ∈ requests)
    (build : Tree.build request snapshot = .ok tree) (inside : node ∈ tree.nodes)
    (beyond : nodeCount ≤ node) :
    Fault snapshot nodeCount requests (.route (.unknownNode node nodeCount))

theorem Fault.cons (snapshot : Snapshot) (nodeCount : Nat) (first : Request) (rest : List Request)
    (error : RefreshError) (fault : Fault snapshot nodeCount rest error) :
    Fault snapshot nodeCount (first :: rest) error := by
  cases fault with
  | treeless request error member build =>
    exact .treeless request error (List.mem_cons_of_mem _ member) build
  | outside request tree node member build inside beyond =>
    exact .outside request tree node (List.mem_cons_of_mem _ member) build inside beyond

theorem fault_of_addTree (roles : NodeRoles) (snapshot : Snapshot) (generation : Generation)
    (requests : List Request) (request : Request) (member : request ∈ requests) (error : RefreshError)
    (failed : generation.addTree roles snapshot request = .error error) :
    Fault snapshot generation.routing.nodeCount requests error := by
  unfold addTree at failed
  cases build : Tree.build request snapshot with
  | error error =>
    rw [build] at failed
    cases failed
    exact .treeless request error member build
  | ok tree =>
    cases install : generation.routing.installTree tree with
    | error error =>
      obtain ⟨node, inside, beyond, rfl⟩ := generation.routing.installTree_eq_error tree error install
      simp only [build, install] at failed
      cases failed
      exact .outside request tree node member build inside beyond
    | ok installed =>
      simp only [build, install] at failed
      cases failed

theorem fault_of_foldlM (roles : NodeRoles) (snapshot : Snapshot) (generation : Generation)
    (requests : List Request) (error : RefreshError)
    (failed : requests.foldlM (addTree roles snapshot) generation = .error error) :
    Fault snapshot generation.routing.nodeCount requests error := by
  induction requests generalizing generation with
  | nil => cases failed
  | cons first rest ih =>
    rw [List.foldlM_cons] at failed
    cases added : generation.addTree roles snapshot first with
    | error other =>
      rw [added] at failed
      cases failed
      exact generation.fault_of_addTree roles snapshot _ first List.mem_cons_self error added
    | ok next =>
      rw [added] at failed
      have fault := ih next failed
      obtain ⟨tree, _, _, rfl⟩ := (addTree_eq_ok ..).1 added
      rw [RoutingState.nodeCount_withTree] at fault
      exact fault.cons snapshot _ first rest error

end Generation

namespace RefreshDriver
variable {σ : Type}

theorem follows_eq_error (driver : RefreshDriver σ) (epoch : Nat) (error : RefreshError) :
    driver.follows epoch = .error error ↔ ∃ previous, driver.lastEpoch = some previous ∧
      epoch ≤ previous ∧ error = .epochNotIncreasing previous epoch := by
  unfold follows
  cases last : driver.lastEpoch with
  | none => simp
  | some previous =>
    by_cases early : epoch ≤ previous
    · simp [early, eq_comm]
    · simp [early]

variable [SnapshotSource σ]

inductive Fault (driver : RefreshDriver σ) (epoch : Nat) : RefreshError → Prop where
  | late (previous : Nat) (last : driver.lastEpoch = some previous) (early : epoch ≤ previous) :
    Fault driver epoch (.epochNotIncreasing previous epoch)
  | unloaded (error : SnapshotError)
    (load : (SnapshotSource.load driver.source epoch).1 = .error error) :
    Fault driver epoch (.snapshot error)
  | unrouted (snapshot : Snapshot) (error : RefreshError)
    (routed : driver.config.forwarding = .routeTable)
    (load : (SnapshotSource.load driver.source epoch).1 = .ok snapshot)
    (fault : Generation.Fault snapshot driver.roles.nodeCount (driver.activeRequests epoch) error) :
    Fault driver epoch error
  | untabled (snapshot : Snapshot) (error : BierError) (bier : driver.config.forwarding = .bier)
    (load : (SnapshotSource.load driver.source epoch).1 = .ok snapshot)
    (build : BierTable.buildAll snapshot driver.positions = .error error) :
    Fault driver epoch (.bier error)

theorem fault_of_build (driver : RefreshDriver σ) (epoch : Nat) (snapshot : Snapshot)
    (load : (SnapshotSource.load driver.source epoch).1 = .ok snapshot) (error : RefreshError)
    (failed : driver.build snapshot (driver.activeRequests epoch) = .error error) :
    driver.Fault epoch error := by
  cases mode : driver.config.forwarding with
  | routeTable =>
    rw [driver.build_routeTable snapshot _ mode] at failed
    have fault := Generation.fault_of_foldlM _ _ _ _ _ failed
    rw [(Generation.holds_empty snapshot driver.roles.nodeCount driver.bierTables).nodeCount] at fault
    exact .unrouted snapshot error mode load fault
  | bier =>
    rw [driver.build_bier snapshot _ mode] at failed
    cases build : BierTable.buildAll snapshot driver.positions with
    | error error =>
      simp only [build] at failed
      cases failed
      exact .untabled snapshot error mode load build
    | ok tables =>
      simp only [build] at failed
      cases failed

theorem Fault.stateAfter (driver : RefreshDriver σ) (epoch : Nat) (error : RefreshError)
    (fault : driver.Fault epoch error) (follows : driver.follows epoch = .ok ())
    (state : RefreshState) : error.stateAfter state = .idle := by
  cases fault with
  | late previous last early =>
    have refused := (driver.follows_eq_error epoch _).2 ⟨previous, last, early, rfl⟩
    cases refused.symm.trans follows
  | unloaded => rfl
  | unrouted _ _ _ _ fault =>
    cases fault with
    | treeless => rfl
    | outside => rfl
  | untabled => rfl

theorem refresh_of_state (driver : RefreshDriver σ) (epoch : Nat)
    (follows : driver.follows epoch = .ok ()) (state : RefreshState) :
    { driver with state }.refresh epoch = driver.refresh epoch := by
  have same : { driver with state }.follows epoch = .ok () := follows
  unfold refresh
  rw [same, follows]
  rfl

/-- A refresh that fails, whatever is wrong with it, leaves everything but the source and the state of
the driver as it was, so a later refresh does not notice it. In a run it sets no timer. -/
theorem keeps_of_refresh_error (driver later : RefreshDriver σ) (epoch : Nat) (error : RefreshError)
    (failed : driver.refresh epoch = (.error error, later)) :
    driver.Fault epoch error ∧
      later = { driver with
        source := later.source
        state := error.stateAfter driver.state } ∧
      (∀ next, driver.follows next = .ok () →
        later.refresh next = { driver with source := later.source }.refresh next) ∧
      ∀ (simulation : Simulation σ) (node : Option NodeId), simulation.driver = driver →
        simulation.handle node (.timer (.refresh epoch)) =
          (.error (.refresh error), { simulation with driver := later }) := by
  have outcome : driver.Fault epoch error ∧ later = { driver with
      source := later.source
      state := error.stateAfter driver.state } := by
    cases driver.ends_of_refresh_eq later epoch _ failed with
    | early _ follows =>
      obtain ⟨previous, last, early, rfl⟩ := (driver.follows_eq_error epoch error).1 follows
      exact ⟨.late previous last early, rfl⟩
    | unloaded error source follows load =>
      have fault : driver.Fault epoch (.snapshot error) := .unloaded error (congrArg Prod.fst load)
      exact ⟨fault, rfl⟩
    | unbuilt _ snapshot source follows load build =>
      have fault := driver.fault_of_build epoch snapshot (congrArg Prod.fst load) error build
      refine ⟨fault, ?_⟩
      rw [fault.stateAfter driver epoch error follows]
      rfl
  obtain ⟨fault, kept⟩ := outcome
  refine ⟨fault, kept, ?_, ?_⟩
  · intro next follows
    rw [kept]
    exact refresh_of_state { driver with source := later.source } next follows _
  · intro simulation node same
    subst same
    simp only [Simulation.handle, Simulation.handleRefresh, failed]

def partingDriver : RefreshDriver SnapshotPlan :=
  ((start { interval := 10, finish := 30 } (.diamond 10) (.ofCounts 4 1)
    (diamondRequests.drop 1 ++ diamondSchedule.take 1) .empty).refresh 0).2

/-- The second refresh has built the tree of the first request when it fails, and the state of the
first epoch stands. -/
theorem keeps_of_refresh_error_parting :
    ∃ later, partingDriver.refresh 10 = (.error (.tree (.severalEgresses 4 0 2)), later) ∧
      (Tree.build diamondRequests[1] (.diamond 10 2)).isOk = true ∧
      partingDriver.state = .scheduled 10 ∧ later.state = .idle ∧
      later.bindings.size = 1 ∧ later.routing.routeCount = 5 ∧ later.lastEpoch = some 0 ∧
      later.routing.arbitrate 0 0 ⟨0, 0⟩ (.forRequest .routeBase 4) = .ok (.outbound 1) := by
  have fails : (partingDriver.refresh 10).1 = .error (.tree (.severalEgresses 4 0 2)) := by
    decide +kernel
  have builds : (Tree.build diamondRequests[1] (.diamond 10 2)).isOk = true := by decide +kernel
  have bound : partingDriver.bindings.size = 1 := by decide +kernel
  have routes : partingDriver.routing.routeCount = 5 := by decide +kernel
  have decides : partingDriver.routing.arbitrate 0 0 ⟨0, 0⟩ (.forRequest .routeBase 4) =
      .ok (.outbound 1) := by decide +kernel
  have failed : partingDriver.refresh 10 =
      (.error (.tree (.severalEgresses 4 0 2)), (partingDriver.refresh 10).2) := Prod.ext fails rfl
  have kept := (keeps_of_refresh_error partingDriver _ 10 _ failed).2.1
  refine ⟨_, failed, builds, by decide +kernel, ?_⟩
  rw [kept]
  exact ⟨rfl, bound, routes, by decide +kernel, decides⟩

end RefreshDriver
end Multicast
