import Multicast.Refresh.Driver
import Multicast.Proofs.Address
import Multicast.Proofs.Route.Install
import Multicast.Proofs.Tree
import Mathlib.Algebra.Group.Nat.Defs

/-!
Generations of route tables. The tables of a generation hold, at each node, the routes of the active
requests in the order of the schedule and nothing else. Requests of different groups do not meet in
any table, so the group of a packet finds the route of its own request.
-/

namespace Multicast
open Std

namespace Request

/-- The two requests have different groups in route tables. -/
abbrev Separate (one other : Request) : Prop := one.group .routeBase ≠ other.group .routeBase

instance : Symm Separate := ⟨fun _ _ apart => apart.symm⟩

theorem separate_of_ids (one other : Request) (different : one.id % 2 ^ 32 ≠ other.id % 2 ^ 32) :
    one.Separate other :=
  fun same => different ((GroupAddress.forRequest_eq_iff ..).1 same)

/-- The request has a tree, and all its nodes have tables. -/
def HasTree (request : Request) (snapshot : Snapshot) (nodeCount : Nat) : Prop :=
  ∃ tree, Tree.build request snapshot = .ok tree ∧ ∀ node ∈ tree.nodes, node < nodeCount

def routeAt? (request : Request) (snapshot : Snapshot) (node : NodeId) : Option Route :=
  match Tree.build request snapshot with
  | .error _ => none
  | .ok tree => tree.nodes[node]?.map tree.route

theorem routeAt?_of_build (request : Request) (snapshot : Snapshot) (node : NodeId) (tree : Tree)
    (built : Tree.build request snapshot = .ok tree) :
    request.routeAt? snapshot node = tree.nodes[node]?.map tree.route := by
  unfold routeAt?
  rw [built]

theorem group_of_build (request : Request) (snapshot : Snapshot) (tree : Tree)
    (built : Tree.build request snapshot = .ok tree) : tree.group = request.group .routeBase := by
  obtain ⟨_, _, _, _, _, _, rfl⟩ := (Tree.build_eq_ok ..).1 built
  rfl

theorem group_of_routeAt? (request : Request) (snapshot : Snapshot) (node : NodeId) (route : Route)
    (found : request.routeAt? snapshot node = some route) :
    route.group = request.group .routeBase := by
  unfold routeAt? at found
  split at found
  · cases found
  next tree built =>
    obtain ⟨place, _, rfl⟩ := Option.map_eq_some_iff.1 found
    exact request.group_of_build snapshot tree built

end Request

def routesAt (snapshot : Snapshot) (requests : List Request) (node : NodeId) : List Route :=
  requests.filterMap (·.routeAt? snapshot node)

theorem routesAt_nil (snapshot : Snapshot) (node : NodeId) : routesAt snapshot [] node = [] := rfl

theorem routesAt_cons (snapshot : Snapshot) (first : Request) (rest : List Request) (node : NodeId) :
    routesAt snapshot (first :: rest) node =
      (first.routeAt? snapshot node).toList ++ routesAt snapshot rest node := by
  unfold routesAt
  cases found : first.routeAt? snapshot node with
  | none => simp [found]
  | some route => simp [found]

theorem routesAt_append (snapshot : Snapshot) (requests more : List Request) (node : NodeId) :
    routesAt snapshot (requests ++ more) node =
      routesAt snapshot requests node ++ routesAt snapshot more node := List.filterMap_append

theorem lacks_of_separate (snapshot : Snapshot) (requests : List Request) (node : NodeId)
    (request : Request) (separate : ∀ other ∈ requests, other.Separate request) :
    (RouteTable.mk node (routesAt snapshot requests node)).Lacks (request.group .routeBase) := by
  intro route member
  obtain ⟨other, listed, found⟩ := List.mem_filterMap.1 member
  rw [other.group_of_routeAt? snapshot node route found]
  exact separate other listed

theorem find?_routesAt (snapshot : Snapshot) (requests : List Request) (node : NodeId)
    (separate : requests.Pairwise Request.Separate) (request : Request) (member : request ∈ requests) :
    (RouteTable.mk node (routesAt snapshot requests node)).find? (request.group .routeBase) =
      request.routeAt? snapshot node := by
  unfold RouteTable.find?
  induction requests with
  | nil => cases member
  | cons first rest ih =>
    obtain ⟨apart, separate⟩ := List.pairwise_cons.1 separate
    simp only [routesAt_cons, List.find?_append] at ih ⊢
    rcases List.mem_cons.1 member with rfl | later
    · cases found : request.routeAt? snapshot node with
      | none =>
        have lacks := lacks_of_separate snapshot rest node request fun other member =>
          (apart other member).symm
        unfold RouteTable.Lacks at lacks
        simpa [List.find?_eq_none] using lacks
      | some route => simp [request.group_of_routeAt? snapshot node route found]
    · rw [ih separate later]
      cases found : first.routeAt? snapshot node with
      | none => simp
      | some route =>
        simp [first.group_of_routeAt? snapshot node route found, apart request later]

theorem find?_routesAt_of_separate (snapshot : Snapshot) (requests : List Request) (node : NodeId)
    (request : Request) (separate : ∀ other ∈ requests, other.Separate request) :
    (RouteTable.mk node (routesAt snapshot requests node)).find? (request.group .routeBase) =
      none := by
  unfold RouteTable.find?
  rw [List.find?_eq_none]
  intro route listed
  simpa using lacks_of_separate snapshot requests node request separate route listed

namespace Generation

/-- The generation has exactly the routes of the given requests. -/
structure Holds (generation : Generation) (snapshot : Snapshot) (nodeCount : Nat)
    (requests : List Request) : Prop where
  table? : ∀ node, generation.routing.table? node =
    if node < nodeCount then some ⟨node, routesAt snapshot requests node⟩ else none
  nodeCount : generation.routing.nodeCount = nodeCount
  entries : generation.entries = generation.routing.routeCount

theorem holds_empty (snapshot : Snapshot) (nodeCount : Nat) (tables : List BierTable) :
    (Generation.mk (.empty nodeCount) tables 0 []).Holds snapshot nodeCount [] where
  table? node := RoutingState.table?_empty nodeCount node
  nodeCount := by simp [RoutingState.empty, RoutingState.nodeCount]
  entries := (RoutingState.routeCount_empty nodeCount).symm

theorem addTree_eq_ok (roles : NodeRoles) (snapshot : Snapshot) (generation next : Generation)
    (request : Request) :
    generation.addTree roles snapshot request = .ok next ↔
      ∃ tree, Tree.build request snapshot = .ok tree ∧
        (∀ node ∈ tree.nodes, node < generation.routing.nodeCount) ∧
        next = { generation with
          routing := generation.routing.withTree tree
          entries := generation.entries + tree.nodes.size
          bindings := generation.bindings ++ tree.bindings roles } := by
  unfold addTree
  cases built : Tree.build request snapshot with
  | error error => simp
  | ok tree =>
    simp only [Except.ok.injEq, exists_eq_left']
    cases installed : generation.routing.installTree tree with
    | error error =>
      have outside : ¬∀ node ∈ tree.nodes, node < generation.routing.nodeCount := by
        intro inside
        have done := (RoutingState.installTree_eq_ok ..).2 ⟨inside, rfl, rfl⟩
        rw [installed] at done
        cases done
      simp only [reduceCtorEq, outside, false_and]
    | ok result =>
      obtain ⟨routing, count⟩ := result
      obtain ⟨inside, rfl, rfl⟩ := (RoutingState.installTree_eq_ok ..).1 installed
      rw [and_iff_right inside, Except.ok.injEq, eq_comm]

/-- One more tree of a new group adds its routes and disturbs no others. -/
theorem holds_addTree (roles : NodeRoles) (snapshot : Snapshot) (nodeCount : Nat)
    (generation next : Generation) (requests : List Request) (request : Request)
    (holds : generation.Holds snapshot nodeCount requests)
    (separate : ∀ other ∈ requests, other.Separate request)
    (added : generation.addTree roles snapshot request = .ok next) :
    next.Holds snapshot nodeCount (requests ++ [request]) := by
  obtain ⟨tree, built, inside, rfl⟩ := (addTree_eq_ok ..).1 added
  have group := request.group_of_build snapshot tree built
  have lacks (node : NodeId) :
      (RouteTable.mk node (routesAt snapshot requests node)).Lacks tree.group :=
    group ▸ lacks_of_separate snapshot requests node request separate
  constructor
  case table? =>
    intro node
    have route := request.routeAt?_of_build snapshot node tree built
    rw [RoutingState.table?_withTree, holds.table? node, routesAt_append, routesAt_cons, route,
      routesAt_nil, List.append_nil]
    cases tree.nodes[node]? with
    | none => simp
    | some place =>
      have appended := RouteTable.install_of_lacks _ (tree.route place) (lacks node)
      by_cases known : node < nodeCount
      · simp [known, appended]
      · simp [known]
  case nodeCount => rw [RoutingState.nodeCount_withTree, holds.nodeCount]
  case entries =>
    have counted := RoutingState.routeCount_withTree generation.routing tree (by
      intro node member
      have known := inside node member
      rw [holds.nodeCount] at known
      exact ⟨_, by rw [holds.table? node, if_pos known], lacks node⟩)
    rw [counted, holds.entries]

theorem holds_foldlM (roles : NodeRoles) (snapshot : Snapshot) (nodeCount : Nat)
    (generation next : Generation) (requests more : List Request)
    (holds : generation.Holds snapshot nodeCount requests)
    (separate : (requests ++ more).Pairwise Request.Separate)
    (built : more.foldlM (Generation.addTree roles snapshot) generation = .ok next) :
    next.Holds snapshot nodeCount (requests ++ more) ∧
      ∀ request ∈ more, request.HasTree snapshot nodeCount := by
  induction more generalizing generation requests with
  | nil =>
    cases built
    rw [List.append_nil]
    exact ⟨holds, by simp⟩
  | cons request rest ih =>
    obtain ⟨middle, added, built⟩ := (Traversal.foldlM_cons_eq_ok ..).1 built
    obtain ⟨tree, found, inside, _⟩ := (addTree_eq_ok ..).1 added
    rw [holds.nodeCount] at inside
    have apart : ∀ other ∈ requests, other.Separate request := fun other member =>
      (List.pairwise_append.1 separate).2.2 other member request List.mem_cons_self
    have middleHolds := holds_addTree _ _ _ _ _ _ _ holds apart added
    rw [List.append_cons] at separate ⊢
    obtain ⟨lastHolds, trees⟩ := ih middle (requests ++ [request]) middleHolds separate built
    refine ⟨lastHolds, ?_⟩
    intro other member
    rcases List.mem_cons.1 member with rfl | later
    · exact ⟨tree, found, inside⟩
    · exact trees other later

theorem exists_foldlM (roles : NodeRoles) (snapshot : Snapshot) (nodeCount : Nat)
    (generation : Generation) (more : List Request)
    (known : generation.routing.nodeCount = nodeCount)
    (trees : ∀ request ∈ more, request.HasTree snapshot nodeCount) :
    ∃ next, more.foldlM (Generation.addTree roles snapshot) generation = .ok next := by
  induction more generalizing generation with
  | nil => exact ⟨generation, rfl⟩
  | cons request rest ih =>
    obtain ⟨tree, built, inside⟩ := trees request List.mem_cons_self
    rw [← known] at inside
    obtain ⟨middle, added, kept⟩ : ∃ middle, generation.addTree roles snapshot request = .ok middle ∧
        middle.routing.nodeCount = nodeCount :=
      ⟨_, (addTree_eq_ok ..).2 ⟨tree, built, inside, rfl⟩,
        (RoutingState.nodeCount_withTree ..).trans known⟩
    obtain ⟨next, rest⟩ := ih middle kept fun other member =>
      trees other (List.mem_cons_of_mem _ member)
    exact ⟨next, (Traversal.foldlM_cons_eq_ok ..).2 ⟨middle, added, rest⟩⟩

end Generation
end Multicast
