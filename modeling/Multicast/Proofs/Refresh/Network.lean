import Multicast.Proofs.Refresh.Bindings
import Multicast.Proofs.Unicast.Interfaces

/-!
Refreshes on one network. As long as only the epoch of the snapshots changes, whatever is in force
comes from the trees of one network. Main statement: a driver keeps to the network through refreshes
and removals of bindings.
-/

namespace Multicast
open Std

/-! ## The epoch of a snapshot -/

namespace Snapshot

/-- The snapshot describes the network at some epoch. -/
def Shows (snapshot network : Snapshot) : Prop := ∃ epoch, snapshot = { network with epoch }

theorem shows_self (snapshot : Snapshot) : snapshot.Shows snapshot := ⟨snapshot.epoch, rfl⟩

theorem pathWithin_epoch (network : Snapshot) (epoch : Nat) (destination : NodeId) (budget : Nat)
    (node : NodeId) :
    { network with epoch }.pathWithin destination budget node =
      network.pathWithin destination budget node := by
  induction budget generalizing node with
  | zero =>
    by_cases here : node = destination
    · rw [here, pathWithin_self, pathWithin_self]
    · rw [pathWithin_zero _ _ _ here, pathWithin_zero _ _ _ here]
  | succ budget ih =>
    by_cases here : node = destination
    · rw [here, pathWithin_self, pathWithin_self]
    · have next : { network with epoch }.nextHop node destination =
          network.nextHop node destination := rfl
      rw [pathWithin_succ _ _ _ _ here, pathWithin_succ _ _ _ _ here, next]
      simp only [ih]

end Snapshot

theorem Tree.build_of_shows (request : Request) (snapshot network : Snapshot)
    (same : snapshot.Shows network) : build request snapshot = build request network := by
  obtain ⟨epoch, rfl⟩ := same
  have each : pathTo request { network with epoch } = pathTo request network := by
    funext destination
    unfold pathTo Snapshot.path
    rw [Snapshot.pathWithin_epoch]
  unfold build paths
  rw [each]

/-! ## Decisions and bindings -/

namespace RefreshDriver
variable {σ : Type}

theorem decides_of_refresh [SnapshotSource σ] (driver later : RefreshDriver σ) (epoch : Nat)
    (outcome : RefreshOutcome) (timers : List TimerRequest)
    (routed : driver.config.forwarding = .routeTable)
    (separate : driver.requests.Pairwise Request.Separate)
    (succeeded : driver.refresh epoch = (.ok (outcome, timers), later)) :
    ∃ snapshot, (SnapshotSource.load driver.source epoch).1 = .ok snapshot ∧
      later.snapshot = some snapshot ∧
      ∀ request ∈ driver.requests,
        (request.activeDuring epoch (driver.windowEnd epoch) = true →
          ∃ tree, Tree.build request snapshot = .ok tree ∧
            (∀ node ∈ tree.nodes, node < driver.roles.nodeCount) ∧
            ∀ node < driver.roles.nodeCount, ∀ origin,
              later.routing.arbitrate node request.source origin (request.group .routeBase) =
                .ok (tree.decisionAt node)) ∧
        (request.activeDuring epoch (driver.windowEnd epoch) = false →
          ∀ node < driver.roles.nodeCount, ∀ origin,
            later.routing.arbitrate node request.source origin (request.group .routeBase) =
              .ok .noRoute) ∧
        ∀ node, ¬node < driver.roles.nodeCount → ∀ origin,
          later.routing.arbitrate node request.source origin (request.group .routeBase) =
            .error (.unknownNode node driver.roles.nodeCount) := by
  obtain ⟨snapshot, generation, load, _, loaded, routing, _, holds, trees⟩ :=
    driver.holds_of_refresh later epoch outcome timers routed separate succeeded
  have apart : (driver.activeRequests epoch).Pairwise Request.Separate := separate.filter _
  refine ⟨snapshot, load, loaded, fun request member => ⟨fun current => ?_, fun inactive => ?_, ?_⟩⟩
  · have active : request ∈ driver.activeRequests epoch := List.mem_filter.2 ⟨member, current⟩
    obtain ⟨tree, built, inside⟩ := trees request active
    refine ⟨tree, built, inside, fun node inside origin => ?_⟩
    have found := find?_routesAt snapshot _ node apart request active
    rw [request.routeAt?_of_build snapshot node tree built] at found
    rw [routing, generation.arbitrate_of_holds _ _ _ holds node inside]
    exact RouteTable.arbitrate_of_tree _ request snapshot tree origin built found
  · intro node inside origin
    have absent := driver.separate_of_inactive epoch separate request member inactive
    rw [routing, generation.arbitrate_of_holds _ _ _ holds node inside]
    unfold RouteTable.arbitrate
    rw [find?_routesAt_of_separate snapshot _ node request absent]
  · intro node outside origin
    rw [routing, generation.arbitrate_outside _ _ _ holds node outside]

/-- Whatever is in force comes from the trees of one network. -/
structure Keeps (driver : RefreshDriver σ) (network : Snapshot) : Prop where
  decides : ∀ request ∈ driver.requests, ∀ node origin decision,
    driver.routing.arbitrate node request.source origin (request.group .routeBase) = .ok decision →
      decision = .noRoute ∨
        ∃ tree, Tree.build request network = .ok tree ∧ decision = tree.decisionAt node
  bound : ∀ binding ∈ driver.bindings.bound, ∃ request ∈ driver.requests, ∃ tree,
    Tree.build request network = .ok tree ∧ binding ∈ tree.bindings driver.roles
  interfaces : ∀ snapshot, driver.snapshot = some snapshot →
    snapshot.interfaces = network.interfaces

theorem keeps_start (config : RefreshConfig) (source : σ) (roles : NodeRoles)
    (requests : List Request) (positions : BitPositions) (network : Snapshot) :
    (start config source roles requests positions).Keeps network where
  decides request _ node origin decision decided := by
    simp only [start, RoutingState.arbitrate, RoutingState.table?_empty] at decided
    split at decided
    · cases decided
    · rename_i found
      split at found
      · cases found
        cases decided
        exact .inl rfl
      · cases found
  bound := by simp [start, LinkBindings.empty]
  interfaces := by simp [start]

theorem keeps_sheds (driver : RefreshDriver σ) (network : Snapshot) (keeps : driver.Keeps network)
    (bindings : LinkBindings) (sheds : driver.bindings.Sheds bindings) :
    { driver with bindings }.Keeps network where
  decides := keeps.decides
  bound binding bound := by
    apply keeps.bound binding
    rw [ExtTreeMap.mem_iff_isSome_getElem?] at bound ⊢
    rcases sheds.bound binding with kept | ⟨gone, _⟩
    · exact kept ▸ bound
    · rw [gone] at bound
      cases bound
  interfaces := keeps.interfaces

/-- A refresh keeps to the network if the snapshot it puts in place shows it. -/
theorem keeps_refresh [SnapshotSource σ] (driver : RefreshDriver σ) (network : Snapshot)
    (keeps : driver.Keeps network) (routed : driver.config.forwarding = .routeTable)
    (separate : driver.requests.Pairwise Request.Separate) (epoch : Nat)
    (shows : ∀ snapshot, (driver.refresh epoch).2.snapshot = some snapshot →
      snapshot.Shows network) :
    (driver.refresh epoch).2.Keeps network := by
  rcases refreshed : driver.refresh epoch with ⟨error | ⟨outcome, timers⟩, later⟩
  · obtain ⟨_, _, rfl⟩ := driver.exists_of_refresh_error later epoch error refreshed
    exact ⟨keeps.decides, keeps.bound, keeps.interfaces⟩
  · have setting := driver.setting_refresh epoch
    rw [refreshed] at setting
    simp only [RefreshDriver.setting, Prod.mk.injEq] at setting
    obtain ⟨_, roles, requests, _⟩ := setting
    obtain ⟨snapshot, load, loaded, decides⟩ :=
      driver.decides_of_refresh later epoch outcome timers routed separate refreshed
    obtain ⟨other, load', _, _, needed, unneeded⟩ :=
      driver.bound_of_refresh later epoch outcome timers routed refreshed
    cases load.symm.trans load'
    have same := shows snapshot (by rw [refreshed]; exact loaded)
    have tree := fun request => Tree.build_of_shows request snapshot network same
    refine ⟨?_, ?_, ?_⟩
    · intro request member node origin decision decided
      obtain ⟨active, inactive, outside⟩ := decides request (requests ▸ member)
      by_cases inside : node < driver.roles.nodeCount
      · cases current : request.activeDuring epoch (driver.windowEnd epoch) with
        | true =>
          obtain ⟨tree', built, _, found⟩ := active current
          rw [found node inside origin] at decided
          cases decided
          exact .inr ⟨tree', tree request ▸ built, rfl⟩
        | false =>
          rw [inactive current node inside origin] at decided
          cases decided
          exact .inl rfl
      · rw [outside node inside origin] at decided
        cases decided
    · intro binding bound
      by_cases need : driver.Needs snapshot epoch binding
      · obtain ⟨request, listed, tree', built, member⟩ := (driver.needs_iff ..).1 need
        refine ⟨request, ?_, tree', tree request ▸ built, roles ▸ member⟩
        exact requests ▸ (List.mem_filter.1 listed).1
      · rw [ExtTreeMap.mem_iff_isSome_getElem?, unneeded binding need,
          ← ExtTreeMap.mem_iff_isSome_getElem?] at bound
        rw [requests, roles]
        exact keeps.bound binding bound
    · intro held found
      cases loaded.symm.trans found
      obtain ⟨epoch, rfl⟩ := same
      rfl

end RefreshDriver
end Multicast
