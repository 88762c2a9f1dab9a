import Multicast.Tree
import Multicast.Proofs.Request
import Multicast.Proofs.Traversal
import Multicast.Proofs.Unicast.Path

/-!
Trees. The outputs of a node are the interfaces of the hops that leave it, and the nodes of a tree
are the source and the ends of its hops. Main statement: if all first hops of a request share an
interface, the only obstacle to its tree is a path that does not arrive.
-/

namespace Multicast
open Std

namespace Tree

def outputsAt (nodes : ExtTreeMap NodeId TreeNode) (node : NodeId) : InterfaceSet :=
  (nodes[node]?.getD unvisited).outputs

theorem mem_outputsAt_extend (nodes : ExtTreeMap NodeId TreeNode) (hop : Hop) (node : NodeId)
    (interface : InterfaceId) :
    interface ∈ outputsAt (extend nodes hop) node ↔
      (hop.sender = node ∧ hop.outInterface = interface) ∨ interface ∈ outputsAt nodes node := by
  simp only [outputsAt, extend, ExtTreeMap.getElem?_insert, Std.compare_eq_iff_eq]
  by_cases received : hop.receiver = node
  · subst received
    by_cases sent : hop.sender = hop.receiver
    · simp [sent]
    · simp [sent]
  · by_cases sent : hop.sender = node
    · simp [received, sent]
    · simp [received, sent]

theorem mem_outputsAt_foldl (hops : List Hop) (nodes : ExtTreeMap NodeId TreeNode) (node : NodeId)
    (interface : InterfaceId) :
    interface ∈ outputsAt (hops.foldl extend nodes) node ↔
      (∃ hop ∈ hops, hop.sender = node ∧ hop.outInterface = interface) ∨
        interface ∈ outputsAt nodes node := by
  induction hops generalizing nodes with
  | nil => simp
  | cons hop rest ih =>
    rw [List.foldl_cons, ih, mem_outputsAt_extend]
    simp only [List.mem_cons, exists_eq_or_imp, or_assoc, or_left_comm]

theorem mem_outputsAt_nodesOf (source : NodeId) (hops : List Hop) (node : NodeId)
    (interface : InterfaceId) :
    interface ∈ outputsAt (nodesOf source hops) node ↔
      ∃ hop ∈ hops, hop.sender = node ∧ hop.outInterface = interface := by
  have walked := mem_outputsAt_foldl hops ((∅ : ExtTreeMap NodeId TreeNode).insert source unvisited)
    node interface
  have none :
      interface ∉ outputsAt ((∅ : ExtTreeMap NodeId TreeNode).insert source unvisited) node := by
    by_cases same : source = node
    · simp [outputsAt, unvisited, same]
    · simp [outputsAt, unvisited, same]
  rw [or_iff_left none] at walked
  rw [← walked]
  by_cases same : source = node
  · subst same
    simp [outputsAt, nodesOf]
  · simp [outputsAt, nodesOf, same, ExtTreeMap.getElem?_insert]

theorem mem_extend (nodes : ExtTreeMap NodeId TreeNode) (hop : Hop) (node : NodeId) :
    node ∈ extend nodes hop ↔ hop.sender = node ∨ hop.receiver = node ∨ node ∈ nodes := by
  simp only [extend, ExtTreeMap.mem_insert, Std.compare_eq_iff_eq]
  tauto

theorem mem_foldl_extend (hops : List Hop) (nodes : ExtTreeMap NodeId TreeNode) (node : NodeId) :
    node ∈ hops.foldl extend nodes ↔
      (∃ hop ∈ hops, hop.sender = node ∨ hop.receiver = node) ∨ node ∈ nodes := by
  induction hops generalizing nodes with
  | nil => simp
  | cons hop rest ih =>
    rw [List.foldl_cons, ih, mem_extend]
    simp only [List.mem_cons, exists_eq_or_imp, or_assoc, or_left_comm]

theorem mem_nodesOf (source : NodeId) (hops : List Hop) (node : NodeId) :
    node ∈ nodesOf source hops ↔
      node = source ∨ ∃ hop ∈ hops, hop.sender = node ∨ hop.receiver = node := by
  simp only [nodesOf, ExtTreeMap.mem_insert, Std.compare_eq_iff_eq, mem_foldl_extend,
    ExtTreeMap.not_mem_empty, or_false]
  rw [or_comm, or_assoc, or_self, or_comm, @eq_comm _ source]

theorem singleEgress?_eq_some (outputs : InterfaceSet) (interface : InterfaceId) :
    singleEgress? outputs = some interface ↔ ∀ other, other ∈ outputs ↔ other = interface := by
  have members (other : InterfaceId) : other ∈ outputs.toList ↔ other ∈ outputs :=
    ExtTreeSet.mem_toList
  have distinct : outputs.toList.Pairwise (fun one other => ¬compare one other = .eq) :=
    ExtTreeSet.distinct_toList
  simp only [← members]
  unfold singleEgress?
  generalize outputs.toList = interfaces at distinct
  rcases interfaces with _ | ⟨first, _ | ⟨second, rest⟩⟩
  · simp
  · simp [eq_comm]
  · simp only [reduceCtorEq, false_iff]
    intro single
    have same : first = second := by
      calc
        first = interface := (single first).1 (by simp)
        _ = second := ((single second).1 (by simp)).symm
    simp [same] at distinct

def ofPaths (request : Request) (walked : List (List Hop)) (egress : InterfaceId) : Tree where
  request := request.id
  source := request.source
  group := request.group .routeBase
  origin := ⟨request.source, egress⟩
  nodes := nodesOf request.source walked.flatten
  hops := ExtTreeSet.ofList walked.flatten

theorem build_of_isEmpty (request : Request) (snapshot : Snapshot)
    (empty : request.destinations.isEmpty = true) :
    build request snapshot = .error (.noDestinations request.id) := by
  simp [build, empty, throw, throwThe, MonadExceptOf.throw, bind, Except.bind]

theorem build_of_self (request : Request) (snapshot : Snapshot)
    (some : request.destinations.isEmpty = false) (self : request.source ∈ request.destinations) :
    build request snapshot = .error (.selfDestination request.id request.source) := by
  simp [build, some, self, throw, throwThe, MonadExceptOf.throw, bind, Except.bind]

theorem build_of_paths (request : Request) (snapshot : Snapshot)
    (some : request.destinations.isEmpty = false) (other : request.source ∉ request.destinations) :
    build request snapshot =
      match paths request snapshot with
      | .error error => .error error
      | .ok walked =>
        let outputs := outputsAt (nodesOf request.source walked.flatten) request.source
        match singleEgress? outputs with
        | .some egress => .ok (ofPaths request walked egress)
        | .none => .error (.severalEgresses request.id request.source outputs.size) := by
  cases found : paths request snapshot with
  | error error => simp [build, some, other, found, bind, Except.bind]
  | ok walked =>
    cases single :
      singleEgress? (outputsAt (nodesOf request.source walked.flatten) request.source) with
    | none =>
      unfold outputsAt at single
      simp [build, some, other, found, single, outputsAt, bind, Except.bind, throw, throwThe,
        MonadExceptOf.throw]
    | some egress =>
      unfold outputsAt at single
      simp [build, some, other, found, single, outputsAt, ofPaths, bind, Except.bind, pure,
        Except.pure]

theorem build_eq_ok (request : Request) (snapshot : Snapshot) (tree : Tree) :
    build request snapshot = .ok tree ↔
      request.destinations.isEmpty = false ∧ request.source ∉ request.destinations ∧
      ∃ walked egress, paths request snapshot = .ok walked ∧
        (∀ interface, interface ∈ outputsAt (nodesOf request.source walked.flatten) request.source ↔
          interface = egress) ∧ tree = ofPaths request walked egress := by
  cases empty : request.destinations.isEmpty with
  | true => simp [build_of_isEmpty _ _ empty]
  | false =>
    by_cases self : request.source ∈ request.destinations
    · simp [build_of_self _ _ empty self, self]
    · rw [build_of_paths _ _ empty self]
      cases found : paths request snapshot with
      | error error => simp
      | ok walked =>
        simp only [← singleEgress?_eq_some]
        cases single :
          singleEgress? (outputsAt (nodesOf request.source walked.flatten) request.source) with
        | none => simp [single]
        | some egress => simp [single, self, eq_comm]

theorem pathTo_eq_ok (request : Request) (snapshot : Snapshot) (destination : NodeId)
    (hops : List Hop) :
    pathTo request snapshot destination = .ok hops ↔
      snapshot.path request.source destination = .ok hops := by
  unfold pathTo
  rcases snapshot.path request.source destination with (error | error) | walked
  · simp
  · simp
  · simp

/-- All first hops of a request leave its source on the interface. -/
def SharesEgress (request : Request) (snapshot : Snapshot) (egress : InterfaceId) : Prop :=
  ∀ destination ∈ request.destinations, ∀ next,
    snapshot.nextHop request.source destination = .ok next → next.outInterface = egress

theorem sharesEgress_of_way (request : Request) (snapshot : Snapshot) (way : NodeId × InterfaceId)
    (shared : ∀ destination ∈ request.destinations,
      snapshot.way? request.source destination = some way) :
    SharesEgress request snapshot way.2 := by
  intro destination listed next found
  have same := snapshot.way?_of_nextHop _ _ next found
  rw [shared destination listed] at same
  exact congrArg Prod.snd (Option.some.inj same).symm

theorem mem_outputs_of_shared (request : Request) (snapshot : Snapshot) (egress : InterfaceId)
    (inhabited : ∃ destination, destination ∈ request.destinations)
    (away : request.source ∉ request.destinations)
    (shared : SharesEgress request snapshot egress)
    (walked : List (List Hop)) (walks : paths request snapshot = .ok walked)
    (interface : InterfaceId) :
    interface ∈ outputsAt (nodesOf request.source walked.flatten) request.source ↔
      interface = egress := by
  have each := (Traversal.mapM_eq_ok ..).1 walks
  rw [mem_outputsAt_nodesOf]
  constructor
  · rintro ⟨hop, member, leaves, rfl⟩
    obtain ⟨destination, listed, path, walk, inside⟩ :=
      Traversal.exists_of_mem_flatten _ _ _ each hop member
    obtain ⟨next, found, rfl⟩ :=
      snapshot.path_leaves_once _ _ path ((pathTo_eq_ok ..).1 walk) hop inside leaves
    exact shared destination (ExtTreeSet.mem_toList.1 listed) next found
  · rintro rfl
    obtain ⟨destination, listed⟩ := inhabited
    obtain ⟨path, walk, inside⟩ :=
      Traversal.exists_subset_flatten _ _ _ each destination (ExtTreeSet.mem_toList.2 listed)
    have apart : request.source ≠ destination := fun same => away (same ▸ listed)
    obtain ⟨next, found, first⟩ := snapshot.path_first _ _ path ((pathTo_eq_ok ..).1 walk) apart
    exact ⟨_, inside first, rfl, shared destination listed next found⟩

theorem build_of_shared (request : Request) (snapshot : Snapshot) (egress : InterfaceId)
    (inhabited : ∃ destination, destination ∈ request.destinations)
    (away : request.source ∉ request.destinations)
    (shared : SharesEgress request snapshot egress) :
    (∃ tree, build request snapshot = .ok tree) ∨
      ∃ destination ∈ request.destinations, ∃ error,
        pathTo request snapshot destination = .error error ∧
          build request snapshot = .error error := by
  rw [build_of_paths _ _ ((NodeSet.isEmpty_eq_false_iff _).2 inhabited) away]
  cases walks : paths request snapshot with
  | error error =>
    obtain ⟨destination, member, failed⟩ := Traversal.mapM_eq_error _ _ _ walks
    exact .inr ⟨destination, ExtTreeSet.mem_toList.1 member, error, failed, rfl⟩
  | ok walked =>
    have single := (singleEgress?_eq_some _ _).2
      (mem_outputs_of_shared request snapshot egress inhabited away shared walked walks)
    exact .inl ⟨ofPaths request walked egress, by simp only [single]⟩

section
variable (request : Request) (snapshot : Snapshot) (tree : Tree)
  (built : build request snapshot = .ok tree)
include built

theorem exists_destination : ∃ destination, destination ∈ request.destinations := by
  obtain ⟨some, _⟩ := (build_eq_ok ..).1 built
  exact (NodeSet.isEmpty_eq_false_iff _).1 some

theorem exists_path (destination : NodeId) (listed : destination ∈ request.destinations) :
    ∃ hops, snapshot.path request.source destination = .ok hops := by
  obtain ⟨_, _, walked, _, walks, _⟩ := (build_eq_ok ..).1 built
  obtain ⟨hops, walk, _⟩ := Traversal.exists_subset_flatten _ _ _ ((Traversal.mapM_eq_ok ..).1 walks)
    destination (ExtTreeSet.mem_toList.2 listed)
  exact ⟨hops, (pathTo_eq_ok ..).1 walk⟩

theorem mem_hops (hop : Hop) :
    hop ∈ tree.hops ↔ ∃ destination ∈ request.destinations, ∃ hops,
      snapshot.path request.source destination = .ok hops ∧ hop ∈ hops := by
  obtain ⟨_, _, walked, egress, walks, _, rfl⟩ := (build_eq_ok ..).1 built
  have each := (Traversal.mapM_eq_ok ..).1 walks
  rw [ofPaths, ExtTreeSet.mem_ofList, List.contains_iff_mem]
  constructor
  · intro member
    obtain ⟨destination, listed, hops, walk, crosses⟩ :=
      Traversal.exists_of_mem_flatten _ _ _ each hop member
    exact ⟨destination, ExtTreeSet.mem_toList.1 listed, hops, (pathTo_eq_ok ..).1 walk, crosses⟩
  · rintro ⟨destination, listed, hops, path, crosses⟩
    obtain ⟨own, walk, inside⟩ := Traversal.exists_subset_flatten _ _ _ each destination
      (ExtTreeSet.mem_toList.2 listed)
    cases ((pathTo_eq_ok ..).1 walk).symm.trans path
    exact inside crosses

theorem interfaces_of_mem_hops (hop : Hop) (member : hop ∈ tree.hops) :
    snapshot.interfaces.interfaceTo? hop.sender hop.receiver = some hop.outInterface ∧
      snapshot.interfaces.interfaceTo? hop.receiver hop.sender = some hop.inInterface := by
  obtain ⟨destination, _, hops, path, inside⟩ := (mem_hops request snapshot tree built hop).1 member
  obtain ⟨next, found, same⟩ := snapshot.nextHop_of_mem _ _ _ hops path hop inside
  obtain ⟨_, _, _, _, leaves, enters⟩ := (snapshot.nextHop_eq_ok ..).1 found
  rw [same]
  exact ⟨leaves, enters⟩

theorem mem_outputs_of_build (node : NodeId) (interface : InterfaceId) :
    interface ∈ outputsAt tree.nodes node ↔
      ∃ hop ∈ tree.hops, hop.sender = node ∧ hop.outInterface = interface := by
  obtain ⟨_, _, walked, egress, walks, _, rfl⟩ := (build_eq_ok ..).1 built
  simp only [ofPaths, mem_outputsAt_nodesOf, ExtTreeSet.mem_ofList, List.contains_iff_mem]

theorem mem_nodes (node : NodeId) :
    node ∈ tree.nodes ↔
      node = request.source ∨ ∃ hop ∈ tree.hops, hop.sender = node ∨ hop.receiver = node := by
  obtain ⟨_, _, walked, egress, _, _, rfl⟩ := (build_eq_ok ..).1 built
  simp only [ofPaths, mem_nodesOf, ExtTreeSet.mem_ofList, List.contains_iff_mem]

/-- No hop enters the source: a path that came back to it would go round forever. -/
theorem receiver_ne_source (hop : Hop) (member : hop ∈ tree.hops) :
    hop.receiver ≠ request.source := by
  obtain ⟨_, away, _⟩ := (build_eq_ok ..).1 built
  obtain ⟨destination, listed, hops, path, inside⟩ := (mem_hops request snapshot tree built hop).1 member
  obtain ⟨before, after, rfl⟩ := List.append_of_mem inside
  obtain ⟨budget, suffix⟩ := snapshot.pathWithin_suffix _ _ _ before hop after path
  obtain ⟨_, next, later, _, same, rest⟩ := snapshot.pathWithin_cons _ _ _ _ _ suffix
  intro back
  have entered : next.node = request.source := by
    rw [same] at back
    exact back
  rw [entered] at rest
  have lengths := congrArg List.length (snapshot.pathWithin_unique _ _ _ _ _ _ path rest)
  simp only [List.length_append, List.length_cons] at lengths
  omega

theorem exists_hop_into (node : NodeId) (member : node ∈ tree.nodes)
    (away : node ≠ request.source) : ∃ hop ∈ tree.hops, hop.receiver = node := by
  rcases (mem_nodes request snapshot tree built node).1 member with
    here | ⟨hop, inside, rfl | rfl⟩
  · exact absurd here away
  · obtain ⟨destination, listed, hops, path, crosses⟩ :=
      (mem_hops request snapshot tree built hop).1 inside
    rcases snapshot.sender_of_mem _ _ _ hops path hop crosses with here | ⟨earlier, before, entered⟩
    · exact absurd here away
    · exact ⟨earlier, (mem_hops request snapshot tree built earlier).2
        ⟨destination, listed, hops, path, before⟩, entered⟩
  · exact ⟨hop, inside, rfl⟩

theorem source_lt_nodeCount : request.source < snapshot.nodeCount := by
  obtain ⟨_, away, _⟩ := (build_eq_ok ..).1 built
  obtain ⟨destination, listed⟩ := exists_destination request snapshot tree built
  obtain ⟨hops, path⟩ := exists_path request snapshot tree built destination listed
  have apart : request.source ≠ destination := fun same => away (same ▸ listed)
  obtain ⟨next, found, _⟩ := snapshot.path_first _ _ hops path apart
  exact ((snapshot.nextHop_eq_ok ..).1 found).1

end

end Tree
end Multicast
