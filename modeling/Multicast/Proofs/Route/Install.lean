import Multicast.Route.State
import Multicast.Proofs.Traversal

/-!
Installing trees. A tree adds one route to the table of each of its nodes. If no table has a route
of the tree's group yet, each route stands at the end of its table, and no other table changes.
-/

namespace Multicast
open Std

namespace RouteTable

def Lacks (table : RouteTable) (group : GroupAddress) : Prop :=
  ∀ route ∈ table.routes, route.group ≠ group

end RouteTable

namespace Route

theorem install_of_other_groups (added : Route) (routes : List Route)
    (other : ∀ route ∈ routes, route.group ≠ added.group) :
    added.install routes = routes ++ [added] := by
  induction routes with
  | nil => rfl
  | cons route rest ih =>
    have different : route.sameKey added = false := by
      simp [sameKey, other route List.mem_cons_self]
    rw [install, if_neg (by simp [different]),
      ih fun route member => other route (List.mem_cons_of_mem _ member)]
    rfl

end Route

namespace RouteTable

theorem install_of_lacks (table : RouteTable) (route : Route) (fresh : table.Lacks route.group) :
    table.install route = ⟨table.node, table.routes ++ [route]⟩ := by
  unfold install
  rw [Route.install_of_other_groups route table.routes fresh]

end RouteTable

theorem total_modify {α : Type} (members : List α) (size : α → Nat) (change : α → α) (index : Nat)
    (member : α) (found : members[index]? = some member)
    (grows : size (change member) = size member + 1) :
    total ((members.modify index change).map size) = total (members.map size) + 1 := by
  induction members generalizing index with
  | nil => simp at found
  | cons first rest ih =>
    cases index with
    | zero =>
      simp only [List.getElem?_cons_zero, Option.some.injEq] at found
      subst found
      simp only [List.modify_zero_cons, List.map_cons, total_cons, grows]
      omega
    | succ index =>
      simp only [List.getElem?_cons_succ] at found
      simp only [List.modify_succ_cons, List.map_cons, total_cons, ih index found]
      omega

namespace RoutingState

@[simp]
theorem nodeCount_empty (nodeCount : Nat) : (empty nodeCount).nodeCount = nodeCount := by
  simp [RoutingState.nodeCount, empty]

theorem table?_empty (nodeCount : Nat) (node : NodeId) :
    (empty nodeCount).table? node = if node < nodeCount then some (.empty node) else none := by
  by_cases inside : node < nodeCount
  · simp [empty, table?, inside]
  · simp [empty, table?, inside]

theorem routeCount_empty (nodeCount : Nat) : (empty nodeCount).routeCount = 0 := by
  have zero (nodes : List Nat) : total (nodes.map fun node => (RouteTable.empty node).size) = 0 := by
    induction nodes with
    | nil => rfl
    | cons node rest ih => rw [List.map_cons, total_cons, ih]; rfl
  simpa [routeCount, empty, Function.comp_def] using zero (List.range nodeCount)

theorem nodeCount_installAt (state : RoutingState) (node : NodeId) (route : Route) :
    (state.installAt node route).nodeCount = state.nodeCount := by
  simp [installAt, nodeCount]

theorem table?_installAt (state : RoutingState) (node other : NodeId) (route : Route) :
    (state.installAt node route).table? other =
      if node = other then (state.table? other).map (·.install route) else state.table? other := by
  simp only [installAt, table?, Array.getElem?_modify]

theorem routeCount_installAt (state : RoutingState) (node : NodeId) (route : Route)
    (table : RouteTable) (found : state.table? node = some table) (fresh : table.Lacks route.group) :
    (state.installAt node route).routeCount = state.routeCount + 1 := by
  simp only [routeCount, installAt, Array.toList_modify]
  apply total_modify _ _ _ _ table
  · simpa [table?] using found
  · simp [RouteTable.install_of_lacks table route fresh, RouteTable.size]

def withRoutes (tree : Tree) (state : RoutingState) (places : List (NodeId × TreeNode)) :
    RoutingState :=
  places.foldl (fun installed place => installed.installAt place.1 (tree.route place.2)) state

theorem withRoutes_cons (tree : Tree) (state : RoutingState) (place : NodeId × TreeNode)
    (rest : List (NodeId × TreeNode)) :
    withRoutes tree state (place :: rest) =
      withRoutes tree (state.installAt place.1 (tree.route place.2)) rest := rfl

theorem nodeCount_withRoutes (tree : Tree) (state : RoutingState)
    (places : List (NodeId × TreeNode)) :
    (withRoutes tree state places).nodeCount = state.nodeCount := by
  induction places generalizing state with
  | nil => rfl
  | cons place rest ih => rw [withRoutes_cons, ih, nodeCount_installAt]

theorem table?_withRoutes_of_not_mem (tree : Tree) (state : RoutingState)
    (places : List (NodeId × TreeNode)) (node : NodeId) (absent : ∀ place ∈ places, place.1 ≠ node) :
    (withRoutes tree state places).table? node = state.table? node := by
  induction places generalizing state with
  | nil => rfl
  | cons place rest ih =>
    rw [withRoutes_cons, ih _ fun other member => absent other (List.mem_cons_of_mem _ member),
      table?_installAt, if_neg (absent place List.mem_cons_self)]

theorem table?_withRoutes_of_mem (tree : Tree) (state : RoutingState)
    (places : List (NodeId × TreeNode)) (distinct : places.Pairwise (fun one other => one.1 ≠ other.1))
    (place : NodeId × TreeNode) (member : place ∈ places) :
    (withRoutes tree state places).table? place.1 =
      (state.table? place.1).map (·.install (tree.route place.2)) := by
  induction places generalizing state with
  | nil => cases member
  | cons first rest ih =>
    obtain ⟨apart, distinct⟩ := List.pairwise_cons.1 distinct
    rw [withRoutes_cons]
    rcases List.mem_cons.1 member with rfl | later
    · rw [table?_withRoutes_of_not_mem _ _ _ _ fun other member => (apart other member).symm,
        table?_installAt, if_pos rfl]
    · rw [ih _ distinct later, table?_installAt, if_neg (apart place later)]

theorem routeCount_withRoutes (tree : Tree) (state : RoutingState)
    (places : List (NodeId × TreeNode)) (distinct : places.Pairwise (fun one other => one.1 ≠ other.1))
    (fresh : ∀ place ∈ places, ∃ table, state.table? place.1 = some table ∧ table.Lacks tree.group) :
    (withRoutes tree state places).routeCount = state.routeCount + places.length := by
  induction places generalizing state with
  | nil => rfl
  | cons first rest ih =>
    obtain ⟨apart, distinct⟩ := List.pairwise_cons.1 distinct
    obtain ⟨table, found, lacks⟩ := fresh first List.mem_cons_self
    have counted := routeCount_installAt state first.1 (tree.route first.2) table found lacks
    have later : ∀ place ∈ rest, ∃ table,
        (state.installAt first.1 (tree.route first.2)).table? place.1 = some table ∧
          table.Lacks tree.group := by
      intro place member
      rw [table?_installAt, if_neg (apart place member)]
      exact fresh place (List.mem_cons_of_mem _ member)
    rw [withRoutes_cons, ih _ distinct later, counted, List.length_cons]
    omega

def withTree (state : RoutingState) (tree : Tree) : RoutingState :=
  withRoutes tree state tree.nodes.toList

theorem places_distinct (tree : Tree) :
    tree.nodes.toList.Pairwise (fun one other => one.1 ≠ other.1) :=
  ExtTreeMap.distinct_keys_toList.imp fun different same => different (by simp [same])

theorem nodeCount_withTree (state : RoutingState) (tree : Tree) :
    (state.withTree tree).nodeCount = state.nodeCount := nodeCount_withRoutes _ _ _

theorem table?_withTree (state : RoutingState) (tree : Tree) (node : NodeId) :
    (state.withTree tree).table? node =
      match tree.nodes[node]? with
      | none => state.table? node
      | some place => (state.table? node).map (·.install (tree.route place)) := by
  cases found : tree.nodes[node]? with
  | none =>
    apply table?_withRoutes_of_not_mem
    rintro ⟨other, place⟩ member rfl
    rw [ExtTreeMap.mem_toList_iff_getElem?_eq_some, found] at member
    cases member
  | some place =>
    exact table?_withRoutes_of_mem tree state _ (places_distinct tree) (node, place)
      (ExtTreeMap.mem_toList_iff_getElem?_eq_some.2 found)

theorem routeCount_withTree (state : RoutingState) (tree : Tree)
    (fresh : ∀ node ∈ tree.nodes, ∃ table, state.table? node = some table ∧ table.Lacks tree.group) :
    (state.withTree tree).routeCount = state.routeCount + tree.nodes.size := by
  unfold withTree
  rw [routeCount_withRoutes tree state _ (places_distinct tree), ExtTreeMap.length_toList]
  rintro ⟨node, place⟩ member
  have found := ExtTreeMap.mem_toList_iff_getElem?_eq_some.1 member
  exact fresh node (ExtTreeMap.mem_iff_isSome_getElem?.2 (by rw [found]; rfl))

theorem installTreeInPlace_of_inside (state : RoutingState) (tree : Tree)
    (inside : ∀ node ∈ tree.nodes, node < state.nodeCount) :
    state.installTreeInPlace tree = (.ok tree.nodes.size, state.withTree tree) := by
  have none : tree.nodes.keys.find? (state.nodeCount ≤ ·) = .none := by
    simpa [List.find?_eq_none] using inside
  unfold installTreeInPlace
  rw [none]
  rfl

theorem exists_of_inside (state : RoutingState) (tree : Tree)
    (inside : ∀ node ∈ tree.nodes, node < state.nodeCount) : ∃ later,
    state.installTreeInPlace tree = (.ok tree.nodes.size, later) ∧
      later.nodeCount = state.nodeCount ∧
      (∀ node place, tree.nodes[node]? = some place → ∃ table, state.table? node = some table ∧
        later.table? node = some (table.install (tree.route place))) ∧
      ∀ node, tree.nodes[node]? = none → later.table? node = state.table? node := by
  refine ⟨_, state.installTreeInPlace_of_inside tree inside, state.nodeCount_withTree tree, ?_, ?_⟩
  · intro node place found
    have bounded := inside node (ExtTreeMap.mem_iff_isSome_getElem?.2 (by rw [found]; rfl))
    have there : state.table? node = some state.tables[node] := Array.getElem?_eq_getElem bounded
    refine ⟨_, there, ?_⟩
    rw [state.table?_withTree, found, there]
    rfl
  · intro node absent
    rw [state.table?_withTree, absent]

theorem exists_of_outside (state : RoutingState) (tree : Tree)
    (outside : ∃ node ∈ tree.nodes, state.nodeCount ≤ node) :
    ∃ node ∈ tree.nodes, state.nodeCount ≤ node ∧
      (∀ other ∈ tree.nodes, state.nodeCount ≤ other → node ≤ other) ∧
      state.installTreeInPlace tree = (.error (.unknownNode node state.nodeCount), state) := by
  cases found : tree.nodes.keys.find? (state.nodeCount ≤ ·) with
  | none =>
    obtain ⟨node, member, beyond⟩ := outside
    have inside := List.find?_eq_none.1 found node (ExtTreeMap.mem_keys.2 member)
    exact absurd (decide_eq_true beyond) inside
  | some node =>
    obtain ⟨beyond, front, back, keys, before⟩ := List.find?_eq_some_iff_append.1 found
    have ascending : tree.nodes.keys.Pairwise fun one other => compare one other = .lt :=
      ExtTreeMap.ordered_keys
    rw [keys] at ascending
    refine ⟨node, ExtTreeMap.mem_keys.1 (List.mem_of_find?_eq_some found), of_decide_eq_true beyond,
      fun other member beyond' => ?_, ?_⟩
    · have listed : other ∈ front ++ node :: back := keys ▸ ExtTreeMap.mem_keys.2 member
      rcases List.mem_append.1 listed with earlier | later
      · have inside := before other earlier
        rw [decide_eq_true beyond'] at inside
        cases inside
      · rcases List.mem_cons.1 later with rfl | later
        · exact Nat.le_refl other
        · have less := (List.pairwise_cons.1 (List.pairwise_append.1 ascending).2.1).1 other later
          exact Nat.le_of_lt (Nat.compare_eq_lt.1 less)
    · unfold installTreeInPlace
      rw [found]

theorem installTree_eq_ok (state later : RoutingState) (tree : Tree) (installed : Nat) :
    state.installTree tree = .ok (later, installed) ↔
      (∀ node ∈ tree.nodes, node < state.nodeCount) ∧ later = state.withTree tree ∧
        installed = tree.nodes.size := by
  unfold installTree
  by_cases inside : ∀ node ∈ tree.nodes, node < state.nodeCount
  · rw [installTreeInPlace_of_inside state tree inside, and_iff_right inside]
    simp [eq_comm]
  · have outside : ∃ node ∈ tree.nodes, state.nodeCount ≤ node := by
      simpa using inside
    obtain ⟨node, -, -, -, refused⟩ := exists_of_outside state tree outside
    rw [refused]
    simp [inside]

end RoutingState
end Multicast
