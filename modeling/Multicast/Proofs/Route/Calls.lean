import Multicast.Proofs.Route.Install
import Mathlib.Data.List.Induction
import Mathlib.Data.List.Nodup

/-!
Sequences of routes that are installed. Main statement: a table holds one route for each key that was
installed, in the order of the first times, with all interfaces that were installed under the key; the
first key of a group decides; and a tree is installed on all its nodes or on none.
-/

namespace Multicast
open Std

/-! ## First occurrences -/

section
variable {α : Type} [BEq α] [LawfulBEq α] (members : List α) (member : α)

theorem eraseDups_concat_of_mem (listed : member ∈ members) :
    (members ++ [member]).eraseDups = members.eraseDups := by
  simp [List.eraseDups_append, List.cons_removeAll, listed]

theorem eraseDups_concat_of_not_mem (new : member ∉ members) :
    (members ++ [member]).eraseDups = members.eraseDups ++ [member] := by
  simp [List.eraseDups_append, List.cons_removeAll, new, List.eraseDups_cons]

theorem nodup_eraseDups : members.eraseDups.Nodup := by
  induction members using List.reverseRecOn with
  | nil => exact List.nodup_nil
  | append_singleton members member ih =>
    by_cases listed : member ∈ members
    · rwa [eraseDups_concat_of_mem members member listed]
    · rw [eraseDups_concat_of_not_mem members member listed]
      refine List.nodup_append.2 ⟨ih, List.pairwise_singleton _ member, fun other inside last ends => ?_⟩
      rw [List.mem_singleton.1 ends]
      rintro rfl
      exact listed (List.mem_eraseDups.1 inside)

theorem find?_eraseDups (wanted : α → Bool) :
    members.eraseDups.find? wanted = members.find? wanted := by
  induction members using List.reverseRecOn with
  | nil => rfl
  | append_singleton members member ih =>
    rw [List.find?_append, ← ih]
    by_cases listed : member ∈ members
    · rw [eraseDups_concat_of_mem members member listed]
      cases found : members.eraseDups.find? wanted with
      | some other => rfl
      | none =>
        have unwanted := List.find?_eq_none.1 found member (List.mem_eraseDups.2 listed)
        rw [Option.none_or, List.find?_singleton, if_neg unwanted]
    · rw [eraseDups_concat_of_not_mem members member listed, List.find?_append]

end

namespace Route

def key (route : Route) : Origin × GroupAddress × InterfaceId :=
  (route.origin, route.group, route.input)

theorem sameKey_iff (one other : Route) : one.sameKey other = true ↔ one.key = other.key := by
  simp [sameKey, key, and_assoc]

theorem key_merge (route added : Route) : (route.merge added).key = route.key := rfl

theorem mem_foldl_insert (set : InterfaceSet) (added : List InterfaceId) (interface : InterfaceId) :
    interface ∈ added.foldl (·.insert ·) set ↔ interface ∈ set ∨ interface ∈ added := by
  induction added generalizing set with
  | nil => simp
  | cons first rest ih =>
    rw [List.foldl_cons, ih, ExtTreeSet.mem_insert, Std.compare_eq_iff_eq, List.mem_cons, or_assoc,
      or_left_comm, @eq_comm _ first]

theorem mem_outputs_merge (route added : Route) (interface : InterfaceId) :
    interface ∈ (route.merge added).outputs ↔
      interface ∈ route.outputs ∨ interface ∈ added.outputs := by
  unfold merge
  rw [mem_foldl_insert, ExtTreeSet.mem_toList]

/-- The ways in which a route gets into a list: into a route that has its key, or behind all routes if
there is none. -/
inductive Installs (added : Route) (routes : List Route) : List Route → Prop where
  | merged (front back : List Route) (route : Route) (found : routes = front ++ route :: back)
    (same : route.key = added.key) : Installs added routes (front ++ route.merge added :: back)
  | appended (fresh : added.key ∉ routes.map key) : Installs added routes (routes ++ [added])

theorem installs (added : Route) (routes : List Route) :
    Installs added routes (added.install routes) := by
  induction routes with
  | nil => exact .appended (by simp)
  | cons route rest ih =>
    rw [install]
    by_cases same : route.key = added.key
    · rw [if_pos ((sameKey_iff route added).2 same)]
      exact .merged [] rest route rfl same
    · rw [if_neg (mt (sameKey_iff route added).1 same)]
      generalize added.install rest = later at ih
      cases ih with
      | merged front back found rest same' =>
        subst rest
        exact .merged (route :: front) back found rfl same'
      | appended fresh =>
        refine .appended ?_
        rw [List.map_cons, List.mem_cons, not_or]
        exact ⟨fun same' => same same'.symm, fresh⟩

end Route

namespace RouteTable

def afterInstalls (node : NodeId) (calls : List Route) : RouteTable := calls.foldl install (empty node)

/-- The routes hold what the calls installed. -/
structure Collects (calls routes : List Route) : Prop where
  keys : routes.map Route.key = (calls.map Route.key).eraseDups
  outputs (route : Route) (listed : route ∈ routes) (interface : InterfaceId) :
    interface ∈ route.outputs ↔
      ∃ call ∈ calls, call.key = route.key ∧ interface ∈ call.outputs

section
variable {calls routes : List Route}

theorem Collects.nodup (collects : Collects calls routes) : (routes.map Route.key).Nodup :=
  collects.keys ▸ nodup_eraseDups _

theorem Collects.mem_keys (collects : Collects calls routes)
    (key : Origin × GroupAddress × InterfaceId) :
    key ∈ routes.map Route.key ↔ key ∈ calls.map Route.key := by
  rw [collects.keys, List.mem_eraseDups]

theorem map_key_concat (routes : List Route) (added : Route) :
    (routes ++ [added]).map Route.key = routes.map Route.key ++ [added.key] := List.map_append

theorem exists_call_concat (calls : List Route) (added route : Route) (interface : InterfaceId) :
    (∃ call ∈ calls ++ [added], call.key = route.key ∧ interface ∈ call.outputs) ↔
      (∃ call ∈ calls, call.key = route.key ∧ interface ∈ call.outputs) ∨
        added.key = route.key ∧ interface ∈ added.outputs := by
  simp [or_and_right, exists_or]

theorem Collects.outputs_concat (collects : Collects calls routes) (added route : Route)
    (listed : route ∈ routes) (other : added.key ≠ route.key) (interface : InterfaceId) :
    interface ∈ route.outputs ↔
      ∃ call ∈ calls ++ [added], call.key = route.key ∧ interface ∈ call.outputs := by
  rw [exists_call_concat, ← collects.outputs route listed interface]
  simp [other]

theorem Collects.key_ne {front back : List Route} {route : Route}
    (collects : Collects calls (front ++ route :: back)) (other : Route)
    (listed : other ∈ front ++ back) : route.key ≠ other.key := by
  have apart := collects.nodup
  rw [List.map_append, List.map_cons, List.nodup_middle, List.nodup_cons, ← List.map_append] at apart
  intro equal
  apply apart.1
  rw [equal]
  exact List.mem_map_of_mem listed

theorem Collects.merged {front back : List Route} {route : Route}
    (collects : Collects calls (front ++ route :: back)) (added : Route)
    (same : route.key = added.key) :
    Collects (calls ++ [added]) (front ++ route.merge added :: back) := by
  have inside : route ∈ front ++ route :: back := List.mem_append_right front List.mem_cons_self
  have others (other : Route) (listed : other ∈ front ++ back) : added.key ≠ other.key :=
    same ▸ collects.key_ne other listed
  constructor
  case keys =>
    have known : added.key ∈ calls.map Route.key := by
      rw [← collects.mem_keys, ← same]
      exact List.mem_map_of_mem inside
    -- A route keeps its key when another one is merged into it, so the list of keys is the same.
    have kept : (front ++ route.merge added :: back).map Route.key =
        (front ++ route :: back).map Route.key := by
      rw [List.map_append, List.map_append]
      rfl
    rw [kept, collects.keys, map_key_concat, eraseDups_concat_of_mem _ _ known]
  case outputs =>
    intro kept listed interface
    rcases List.mem_append.1 listed with before | later
    · exact collects.outputs_concat added kept (List.mem_append_left _ before)
        (others kept (List.mem_append_left _ before)) interface
    · rcases List.mem_cons.1 later with rfl | after
      · rw [Route.mem_outputs_merge, exists_call_concat, Route.key_merge,
          collects.outputs route inside interface, and_iff_right same.symm]
      · exact collects.outputs_concat added kept
          (List.mem_append_right _ (List.mem_cons_of_mem _ after))
          (others kept (List.mem_append_right _ after)) interface

theorem Collects.appended (collects : Collects calls routes) (added : Route)
    (fresh : added.key ∉ routes.map Route.key) :
    Collects (calls ++ [added]) (routes ++ [added]) := by
  have new : added.key ∉ calls.map Route.key := mt (collects.mem_keys added.key).2 fresh
  constructor
  case keys =>
    rw [map_key_concat, map_key_concat, collects.keys, eraseDups_concat_of_not_mem _ _ new]
  case outputs =>
    intro kept listed interface
    rcases List.mem_append.1 listed with before | last
    · refine collects.outputs_concat added kept before (fun equal => fresh ?_) interface
      rw [equal]
      exact List.mem_map_of_mem before
    · obtain rfl := List.mem_singleton.1 last
      -- Nothing was installed under the new key before.
      have none : ¬∃ call ∈ calls, call.key = kept.key ∧ interface ∈ call.outputs := by
        rintro ⟨call, made, equal, _⟩
        exact new (equal ▸ List.mem_map_of_mem made)
      rw [exists_call_concat]
      simp [none]

theorem Collects.install (collects : Collects calls routes) (added : Route) :
    Collects (calls ++ [added]) (added.install routes) := by
  have installs := added.installs routes
  generalize added.install routes = later at installs
  cases installs with
  | merged front back route found same =>
    subst found
    exact collects.merged added same
  | appended fresh => exact collects.appended added fresh

theorem Collects.install_of_made (collects : Collects calls routes) (made : Route)
    (listed : made ∈ calls) : made.install routes = routes := by
  have installs := made.installs routes
  generalize made.install routes = later at installs
  cases installs with
  | merged front back route found same =>
    subst found
    have inside := collects.outputs route (List.mem_append_right front List.mem_cons_self)
    have unchanged : (route.merge made).outputs = route.outputs := by
      refine ExtTreeSet.ext_mem fun interface => ?_
      rw [Route.mem_outputs_merge, or_iff_left_iff_imp]
      exact fun added => (inside interface).2 ⟨made, listed, same.symm, added⟩
    have whole : route.merge made = route :=
      congrArg (fun outputs => { route with outputs }) unchanged
    rw [whole]
  | appended fresh =>
    exact absurd ((collects.mem_keys made.key).2 (List.mem_map_of_mem listed)) fresh

theorem Collects.find? (collects : Collects calls routes) (group : GroupAddress) :
    (routes.find? (·.group = group)).map Route.key = (calls.find? (·.group = group)).map Route.key := by
  have ofKeys (routes : List Route) : (routes.find? (·.group = group)).map Route.key =
      (routes.map Route.key).find? (·.2.1 = group) := by
    rw [List.find?_map]
    rfl
  rw [ofKeys, ofKeys, collects.keys, find?_eraseDups]

end

theorem collects_afterInstalls (node : NodeId) (calls : List Route) :
    (afterInstalls node calls).node = node ∧ Collects calls (afterInstalls node calls).routes := by
  induction calls using List.reverseRecOn with
  | nil => exact ⟨rfl, rfl, fun route listed => nomatch listed⟩
  | append_singleton calls added ih =>
    unfold afterInstalls at ih ⊢
    rw [List.foldl_append]
    exact ⟨ih.1, ih.2.install added⟩

theorem arbitrate_of_find? (table : RouteTable) (group : GroupAddress) (entry : Route)
    (found : table.find? group = some entry) (source : NodeId) (origin other : Origin) :
    table.arbitrate source origin group =
      (RouteTable.mk table.node [entry]).arbitrate source other group := by
  have own : (RouteTable.mk table.node [entry]).find? group = some entry := by
    have matching := List.find?_some found
    unfold find?
    rw [List.find?_singleton, if_pos matching]
  unfold arbitrate
  rw [found, own]

theorem arbitrate_afterInstalls_of_lacks (node : NodeId) (calls : List Route) (group : GroupAddress)
    (none : ∀ call ∈ calls, call.group ≠ group) (source : NodeId) (origin : Origin) :
    (afterInstalls node calls).arbitrate source origin group = .ok .noRoute := by
  have missing : calls.find? (·.group = group) = .none := by
    simpa [List.find?_eq_none] using none
  have found := (collects_afterInstalls node calls).2.find? group
  rw [missing, Option.map_none, Option.map_eq_none_iff] at found
  unfold arbitrate find?
  rw [found]

/-- The route with the key that came first for a group decides. -/
theorem exists_decides (node : NodeId) (calls : List Route) (group : GroupAddress) (first : Route)
    (came : calls.find? (·.group = group) = some first) :
    ∃ entry ∈ (afterInstalls node calls).routes, entry.key = first.key ∧
      ∀ source origin other, (afterInstalls node calls).arbitrate source origin group =
        (RouteTable.mk node [entry]).arbitrate source other group := by
  obtain ⟨own, collects⟩ := collects_afterInstalls node calls
  have found := collects.find? group
  rw [came, Option.map_some, Option.map_eq_some_iff] at found
  obtain ⟨entry, found, same⟩ := found
  refine ⟨entry, List.mem_of_find?_eq_some found, same, fun source origin other => ?_⟩
  have alone := (afterInstalls node calls).arbitrate_of_find? group entry found source origin other
  rwa [own] at alone

/-- Whatever routes are installed in a table: no two routes have one key, they stand in the order in which
their keys came first, and each has the interfaces that were installed under its key and no others. What
was installed is not changed by being installed again. A group without any route has none, and otherwise
the route whose key came first for the group decides, as it would alone and for every origin. A tree is
installed with one route on each of its nodes, and nowhere else; if any node has no table, the first such
node is named, and all tables stay as they are. -/
theorem routes_afterInstalls (node : NodeId) (calls : List Route) :
    ((afterInstalls node calls).routes.map Route.key).Nodup ∧
    (afterInstalls node calls).routes.map Route.key = (calls.map Route.key).eraseDups ∧
    (∀ route ∈ (afterInstalls node calls).routes, ∀ interface, interface ∈ route.outputs ↔
      ∃ call ∈ calls, call.key = route.key ∧ interface ∈ call.outputs) ∧
    (∀ made ∈ calls, (afterInstalls node calls).install made = afterInstalls node calls) ∧
    (∀ group, (∀ call ∈ calls, call.group ≠ group) → ∀ source origin,
      (afterInstalls node calls).arbitrate source origin group = .ok .noRoute) ∧
    (∀ group first, calls.find? (·.group = group) = some first →
      ∃ entry ∈ (afterInstalls node calls).routes, entry.key = first.key ∧
        ∀ source origin other, (afterInstalls node calls).arbitrate source origin group =
          (RouteTable.mk node [entry]).arbitrate source other group) ∧
    ∀ (state : RoutingState) (tree : Tree),
      ((∀ place ∈ tree.nodes, place < state.nodeCount) → ∃ later,
        state.installTreeInPlace tree = (.ok tree.nodes.size, later) ∧
        later.nodeCount = state.nodeCount ∧
        (∀ place found, tree.nodes[place]? = some found → ∃ table, state.table? place = some table ∧
          later.table? place =
            some (table.install ⟨tree.origin, tree.group, found.input, found.outputs⟩)) ∧
        ∀ place, tree.nodes[place]? = none → later.table? place = state.table? place) ∧
      ((∃ place ∈ tree.nodes, state.nodeCount ≤ place) → ∃ place ∈ tree.nodes,
        state.nodeCount ≤ place ∧
        (∀ other ∈ tree.nodes, state.nodeCount ≤ other → place ≤ other) ∧
        state.installTreeInPlace tree = (.error (.unknownNode place state.nodeCount), state)) := by
  obtain ⟨_, collects⟩ := collects_afterInstalls node calls
  refine ⟨collects.nodup, collects.keys, collects.outputs, ?_,
    arbitrate_afterInstalls_of_lacks node calls, exists_decides node calls,
    fun state tree => ⟨state.exists_of_inside tree, state.exists_of_outside tree⟩⟩
  intro made listed
  unfold install
  rw [collects.install_of_made made listed]

def crossing : List Route :=
  [⟨⟨0, 1⟩, .routeBase, 1, .ofList [2]⟩, ⟨⟨9, 9⟩, .routeBase, 1, .ofList [5]⟩,
    ⟨⟨0, 1⟩, .routeBase, 1, .ofList [3]⟩]

def straying : Tree where
  request := 0
  source := 0
  group := .routeBase
  origin := ⟨0, 1⟩
  nodes := .ofList [(7, TreeNode.mk 1 ∅), (0, TreeNode.mk 0 (.ofList [1])),
    (3, TreeNode.mk 1 (.ofList [2]))]
  hops := ∅

theorem routes_afterInstalls_crossing :
    (afterInstalls 4 crossing).routes = [⟨⟨0, 1⟩, .routeBase, 1, .ofList [2, 3]⟩,
      ⟨⟨9, 9⟩, .routeBase, 1, .ofList [5]⟩] ∧
    (∀ made ∈ crossing, (afterInstalls 4 crossing).install made = afterInstalls 4 crossing) ∧
    (afterInstalls 4 crossing).arbitrate 9 ⟨9, 9⟩ .routeBase = .ok (.forward [2, 3]) ∧
    (∃ entry ∈ (afterInstalls 4 crossing).routes, entry.key = (⟨0, 1⟩, .routeBase, 1) ∧
      ∀ source origin other, (afterInstalls 4 crossing).arbitrate source origin .routeBase =
        (RouteTable.mk 4 [entry]).arbitrate source other .routeBase) ∧
    (∃ place ∈ straying.nodes, 3 ≤ place ∧
      (RoutingState.empty 3).installTreeInPlace straying =
        (.error (.unknownNode place 3), .empty 3)) ∧
    ∃ later, (RoutingState.empty 8).installTreeInPlace straying = (.ok 3, later) ∧
      later.nodeCount = 8 := by
  obtain ⟨_, _, _, again, _, decides, trees⟩ := routes_afterInstalls 4 crossing
  have inside : ∀ place ∈ straying.nodes, place < (RoutingState.empty 8).nodeCount := fun place listed =>
    (by decide +kernel : ∀ place ∈ straying.nodes.keys, place < (RoutingState.empty 8).nodeCount) place
      (ExtTreeMap.mem_keys.2 listed)
  obtain ⟨place, listed, beyond, _, refused⟩ := (trees (.empty 3) straying).2
    ⟨7, by decide +kernel, by decide +kernel⟩
  obtain ⟨later, installed, sized, _⟩ := (trees (.empty 8) straying).1 inside
  rw [RoutingState.nodeCount_empty] at beyond refused sized
  exact ⟨by decide +kernel, again, by decide +kernel, decides .routeBase _ rfl,
    ⟨place, listed, beyond, refused⟩, later, installed, sized⟩

end RouteTable
end Multicast
