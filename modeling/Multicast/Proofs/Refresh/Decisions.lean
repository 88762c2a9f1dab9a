import Multicast.Proofs.Refresh.Generation
import Multicast.Proofs.Refresh.History
import Multicast.Proofs.Unicast.Sequence
import Mathlib.Data.List.Pairwise

/-!
Decisions after a refresh. What the route tables decide about a request depends on the request, the
snapshot and the window of the last refresh, and on nothing that happened before it.
-/

namespace Multicast
open Std

namespace Tree

/-- What a node does with packets of a tree that come from the tree's source. -/
def decisionAt (tree : Tree) (node : NodeId) : Decision :=
  match tree.nodes[node]? with
  | none => .noRoute
  | some place =>
    if tree.source = node then .outbound tree.origin.interface
    else .forward (place.outputs.toList.filter (· ≠ noInterface))

end Tree

namespace Request

/-- What a node does with packets of a request in a window that is served with a snapshot. -/
def decisionAt (request : Request) (snapshot : Snapshot) (opening closing : Nat) (node : NodeId) :
    Decision :=
  if request.activeDuring opening closing then
    match Tree.build request snapshot with
    | .error _ => .noRoute
    | .ok tree => tree.decisionAt node
  else .noRoute

theorem outputsAt_source (request : Request) (snapshot : Snapshot) (tree : Tree)
    (built : Tree.build request snapshot = .ok tree) (interface : InterfaceId) :
    interface ∈ Tree.outputsAt tree.nodes request.source ↔ interface = tree.origin.interface := by
  obtain ⟨_, _, walked, egress, _, single, rfl⟩ := (Tree.build_eq_ok ..).1 built
  exact single interface

theorem source_of_build (request : Request) (snapshot : Snapshot) (tree : Tree)
    (built : Tree.build request snapshot = .ok tree) : tree.source = request.source := by
  obtain ⟨_, _, _, _, _, _, rfl⟩ := (Tree.build_eq_ok ..).1 built
  rfl

end Request

namespace RouteTable

theorem arbitrate_of_tree (table : RouteTable) (request : Request) (snapshot : Snapshot)
    (tree : Tree) (origin : Origin) (built : Tree.build request snapshot = .ok tree)
    (found : table.find? (request.group .routeBase) = tree.nodes[table.node]?.map tree.route) :
    table.arbitrate request.source origin (request.group .routeBase) =
      .ok (tree.decisionAt table.node) := by
  have source := request.source_of_build snapshot tree built
  unfold arbitrate Tree.decisionAt
  rw [found, source]
  cases place : tree.nodes[table.node]? with
  | none => rfl
  | some node =>
    by_cases here : request.source = table.node
    · have single : Tree.singleEgress? node.outputs = some tree.origin.interface := by
        rw [Tree.singleEgress?_eq_some]
        have outputs := request.outputsAt_source snapshot tree built
        simpa [Tree.outputsAt, here, place] using outputs
      simp [here, Tree.route, single]
    · simp [here, Tree.route]

end RouteTable

namespace Generation

theorem arbitrate_of_holds (generation : Generation) (snapshot : Snapshot) (nodeCount : Nat)
    (requests : List Request) (holds : generation.Holds snapshot nodeCount requests) (node : NodeId)
    (inside : node < nodeCount) (source : NodeId) (origin : Origin) (group : GroupAddress) :
    generation.routing.arbitrate node source origin group =
      (RouteTable.mk node (routesAt snapshot requests node)).arbitrate source origin group := by
  unfold RoutingState.arbitrate
  rw [holds.table? node, if_pos inside]

theorem arbitrate_outside (generation : Generation) (snapshot : Snapshot) (nodeCount : Nat)
    (requests : List Request) (holds : generation.Holds snapshot nodeCount requests) (node : NodeId)
    (outside : ¬node < nodeCount) (source : NodeId) (origin : Origin) (group : GroupAddress) :
    generation.routing.arbitrate node source origin group =
      .error (.unknownNode node nodeCount) := by
  unfold RoutingState.arbitrate
  rw [holds.table? node, if_neg outside, holds.nodeCount]

end Generation

theorem find?_routesAt_of_perm (snapshot : Snapshot) (requests permuted : List Request)
    (node : NodeId) (separate : requests.Pairwise Request.Separate) (perm : permuted.Perm requests)
    (group : GroupAddress) :
    (RouteTable.mk node (routesAt snapshot permuted node)).find? group =
      (RouteTable.mk node (routesAt snapshot requests node)).find? group := by
  have separate' : permuted.Pairwise Request.Separate :=
    perm.symm.pairwise separate fun apart => apart.symm
  by_cases known : ∃ request ∈ requests, request.group .routeBase = group
  · obtain ⟨request, member, rfl⟩ := known
    rw [find?_routesAt snapshot requests node separate request member,
      find?_routesAt snapshot permuted node separate' request (perm.mem_iff.2 member)]
  · have unknown (listed : List Request) (subset : listed ⊆ requests) :
        (RouteTable.mk node (routesAt snapshot listed node)).find? group = none := by
      unfold RouteTable.find?
      rw [List.find?_eq_none]
      intro route member
      obtain ⟨request, inside, found⟩ := List.mem_filterMap.1 member
      have same := request.group_of_routeAt? snapshot node route found
      simp only [decide_eq_true_eq]
      intro equal
      exact known ⟨request, subset inside, same.symm.trans equal⟩
    rw [unknown requests (List.Subset.refl _), unknown permuted perm.subset]

namespace RefreshDriver
variable {σ : Type}

theorem holds_of_build (driver : RefreshDriver σ) (snapshot : Snapshot) (active : List Request)
    (generation : Generation) (routed : driver.config.forwarding = .routeTable)
    (separate : active.Pairwise Request.Separate)
    (built : driver.build snapshot active = .ok generation) :
    generation.Holds snapshot driver.roles.nodeCount active ∧
      ∀ request ∈ active, request.HasTree snapshot driver.roles.nodeCount := by
  rw [driver.build_routeTable snapshot active routed] at built
  exact Generation.holds_foldlM _ _ _ _ _ [] active (Generation.holds_empty _ _ _)
    separate built

theorem exists_build (driver : RefreshDriver σ) (snapshot : Snapshot) (active : List Request)
    (routed : driver.config.forwarding = .routeTable)
    (trees : ∀ request ∈ active, request.HasTree snapshot driver.roles.nodeCount) :
    ∃ generation, driver.build snapshot active = .ok generation := by
  rw [driver.build_routeTable snapshot active routed]
  exact Generation.exists_foldlM _ _ _ _ _ (Generation.holds_empty snapshot _ _).nodeCount trees

/-- A refresh that succeeds leaves exactly the routes of its own window. -/
theorem holds_of_refresh [SnapshotSource σ] (driver later : RefreshDriver σ) (epoch : Nat)
    (outcome : RefreshOutcome) (timers : List TimerRequest)
    (routed : driver.config.forwarding = .routeTable)
    (separate : driver.requests.Pairwise Request.Separate)
    (succeeded : driver.refresh epoch = (.ok (outcome, timers), later)) :
    ∃ snapshot generation, (SnapshotSource.load driver.source epoch).1 = .ok snapshot ∧
      driver.build snapshot (driver.activeRequests epoch) = .ok generation ∧
      later.snapshot = some snapshot ∧ later.routing = generation.routing ∧
      outcome.entriesInstalled = generation.entries ∧
      generation.Holds snapshot driver.roles.nodeCount (driver.activeRequests epoch) ∧
      ∀ request ∈ driver.activeRequests epoch, request.HasTree snapshot driver.roles.nodeCount := by
  cases driver.ends_of_refresh_eq later epoch _ succeeded with
  | built snapshot source generation follows load build outcome timers later install =>
    cases install
    have holds := driver.holds_of_build snapshot _ generation routed (separate.filter _) build
    exact ⟨snapshot, generation, by rw [load], build, rfl, rfl, rfl, holds.1, holds.2⟩

theorem refresh_of_perm [SnapshotSource σ] (driver later : RefreshDriver σ) (epoch : Nat)
    (outcome : RefreshOutcome) (timers : List TimerRequest)
    (routed : driver.config.forwarding = .routeTable)
    (separate : driver.requests.Pairwise Request.Separate)
    (succeeded : driver.refresh epoch = (.ok (outcome, timers), later))
    (permuted : List Request) (perm : permuted.Perm driver.requests) :
    ∃ outcome' timers' later',
      { driver with requests := permuted }.refresh epoch = (.ok (outcome', timers'), later') ∧
      ∀ node source origin group, later'.routing.arbitrate node source origin group =
        later.routing.arbitrate node source origin group := by
  cases driver.ends_of_refresh_eq later epoch _ succeeded with
  | built snapshot source generation follows load build outcome timers later install =>
    cases install
    let other : RefreshDriver σ := { driver with requests := permuted }
    have active : (other.activeRequests epoch).Perm (driver.activeRequests epoch) := perm.filter _
    have apart : (driver.activeRequests epoch).Pairwise Request.Separate := separate.filter _
    have apart' : (other.activeRequests epoch).Pairwise Request.Separate :=
      active.symm.pairwise apart fun different => different.symm
    obtain ⟨holds, trees⟩ := driver.holds_of_build snapshot _ generation routed apart build
    obtain ⟨generation', build'⟩ := other.exists_build snapshot (other.activeRequests epoch) routed
      fun request member => trees request (active.mem_iff.1 member)
    have holds' := (other.holds_of_build snapshot _ generation' routed apart' build').1
    refine ⟨_, _, _, other.refresh_of_build epoch snapshot source generation' follows load build', ?_⟩
    intro node origin group address
    change generation'.routing.arbitrate .. = generation.routing.arbitrate ..
    by_cases inside : node < driver.roles.nodeCount
    · rw [generation.arbitrate_of_holds _ _ _ holds node inside,
        generation'.arbitrate_of_holds _ _ _ holds' node inside]
      unfold RouteTable.arbitrate
      rw [find?_routesAt_of_perm snapshot _ _ node apart active]
    · rw [generation.arbitrate_outside _ _ _ holds node inside,
        generation'.arbitrate_outside _ _ _ holds' node inside]

/-- No route of a window is in the way of a request that is not active in it. -/
theorem separate_of_inactive (driver : RefreshDriver σ) (epoch : Nat)
    (separate : driver.requests.Pairwise Request.Separate) (request : Request)
    (member : request ∈ driver.requests)
    (inactive : request.activeDuring epoch (driver.windowEnd epoch) = false) :
    ∀ other ∈ driver.activeRequests epoch, other.Separate request := by
  intro other listed
  obtain ⟨known, current⟩ := List.mem_filter.1 listed
  have different : other ≠ request := by
    intro same
    rw [same, inactive] at current
    cases current
  exact separate.forall known member different

/-- Whatever was refreshed before, the decisions about a request after a refresh are those of the
request alone under the snapshot and the window of that refresh. -/
theorem arbitrate_of_refresh [SnapshotSource σ] (config : RefreshConfig) (source : σ)
    (roles : NodeRoles) (requests : List Request) (positions : BitPositions) (history : List Nat)
    (driver later : RefreshDriver σ) (epoch : Nat) (outcome : RefreshOutcome)
    (timers : List TimerRequest) (routed : config.forwarding = .routeTable)
    (distinct : requests.Pairwise fun one other => one.id % 2 ^ 32 ≠ other.id % 2 ^ 32)
    (reached : (start config source roles requests positions).Reaches history driver)
    (succeeded : driver.refresh epoch = (.ok (outcome, timers), later)) :
    ∃ snapshot, (SnapshotSource.load driver.source epoch).1 = .ok snapshot ∧
      later.snapshot = some snapshot ∧
      (∀ request ∈ requests, request.activeDuring epoch (driver.windowEnd epoch) = true →
        ∃ tree, Tree.build request snapshot = .ok tree ∧
          ∀ interface, interface ∈ Tree.outputsAt tree.nodes request.source ↔
            interface = tree.origin.interface) ∧
      (∀ request ∈ requests, ∀ node < roles.nodeCount, ∀ origin,
        later.routing.arbitrate node request.source origin (request.group .routeBase) =
          .ok (request.decisionAt snapshot epoch (driver.windowEnd epoch) node)) ∧
      outcome.entriesInstalled = later.routing.routeCount ∧
      ∀ permuted : List Request, permuted.Perm requests →
        ∃ outcome' timers' later',
          { driver with requests := permuted }.refresh epoch = (.ok (outcome', timers'), later') ∧
          ∀ node source origin group, later'.routing.arbitrate node source origin group =
            later.routing.arbitrate node source origin group := by
  have kept := setting_of_reaches _ _ _ reached
  simp only [setting, start, Prod.mk.injEq] at kept
  obtain ⟨rfl, rfl, rfl, rfl⟩ := kept
  have separate : driver.requests.Pairwise Request.Separate :=
    distinct.imp fun different => Request.separate_of_ids _ _ different
  obtain ⟨snapshot, generation, load, _, loaded, routing, entries, holds, trees⟩ :=
    driver.holds_of_refresh later epoch outcome timers routed separate succeeded
  have active (request : Request) (member : request ∈ driver.requests)
      (current : request.activeDuring epoch (driver.windowEnd epoch) = true) :
      request ∈ driver.activeRequests epoch := List.mem_filter.2 ⟨member, current⟩
  have apart : (driver.activeRequests epoch).Pairwise Request.Separate := separate.filter _
  refine ⟨snapshot, load, loaded, ?_, ?_, by rw [entries, routing, holds.entries],
    driver.refresh_of_perm later epoch outcome timers routed separate succeeded⟩
  · intro request member current
    obtain ⟨tree, built, _⟩ := trees request (active request member current)
    exact ⟨tree, built, request.outputsAt_source snapshot tree built⟩
  · intro request member node inside origin
    rw [routing, generation.arbitrate_of_holds _ _ _ holds node inside]
    unfold Request.decisionAt
    cases current : request.activeDuring epoch (driver.windowEnd epoch) with
    | true =>
      obtain ⟨tree, built, _⟩ := trees request (active request member current)
      have found := find?_routesAt snapshot _ node apart request (active request member current)
      rw [request.routeAt?_of_build snapshot node tree built] at found
      rw [built]
      exact RouteTable.arbitrate_of_tree _ request snapshot tree origin built found
    | false =>
      have absent := driver.separate_of_inactive epoch separate request member current
      unfold RouteTable.arbitrate
      rw [find?_routesAt_of_separate snapshot _ node request absent]
      rfl

def diamondRequests : List Request :=
  [⟨4, 0, (∅ : NodeSet).insert 3, 1.0, 5, 20, "", ""⟩,
    ⟨5, 1, (∅ : NodeSet).insert 3, 1.0, 5, 20, "", ""⟩]

theorem arbitrate_of_refresh_diamond :
    ∃ outcome timers later,
      ((diamondDriver diamondRequests).refresh 0).2.refresh 10 = (.ok (outcome, timers), later) ∧
      later.routing.arbitrate 1 0 ⟨0, 0⟩ (.forRequest .routeBase 4) = .ok .noRoute ∧
      later.routing.arbitrate 2 0 ⟨0, 0⟩ (.forRequest .routeBase 4) = .ok (.forward [2]) ∧
      later.routing.arbitrate 1 1 ⟨0, 0⟩ (.forRequest .routeBase 5) = .ok (.outbound 2) := by
  have succeeds : (((diamondDriver diamondRequests).refresh 0).2.refresh 10).1.isOk = true := by
    decide +kernel
  rcases refreshed : ((diamondDriver diamondRequests).refresh 0).2.refresh 10 with
    ⟨error | ⟨outcome, timers⟩, later⟩
  · rw [refreshed] at succeeds
    cases succeeds
  · obtain ⟨snapshot, load, _, _, decisions, _⟩ :=
      arbitrate_of_refresh { interval := 10, finish := 30 } (.diamond 10) (.terrestrial 4)
        diamondRequests .empty [0] ((diamondDriver diamondRequests).refresh 0).2 later 10 outcome
        timers rfl (by decide) (.refresh [] _ 0 .start) refreshed
    have served : snapshot = .diamond 10 2 := by
      rw [source_refresh (diamondDriver diamondRequests) 0 rfl] at load
      exact (Except.ok.inj load).symm
    subst served
    have first : diamondRequests[0] ∈ diamondRequests := List.getElem_mem _
    have second : diamondRequests[1] ∈ diamondRequests := List.getElem_mem _
    have left := decisions _ first 1 (by decide) ⟨0, 0⟩
    have joined := decisions _ first 2 (by decide) ⟨0, 0⟩
    have source := decisions _ second 1 (by decide) ⟨0, 0⟩
    refine ⟨outcome, timers, later, rfl, ?_, ?_, ?_⟩
    · exact left.trans (by decide +kernel)
    · exact joined.trans (by decide +kernel)
    · exact source.trans (by decide +kernel)

end RefreshDriver
end Multicast
