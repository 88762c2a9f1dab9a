import Multicast.Proofs.Request
import Multicast.Proofs.Tree
import Multicast.Proofs.Unicast.Chain
import Multicast.Proofs.Unicast.Sequence
import Mathlib.Data.Finset.Max

/-!
Trees as unions of chains. The chains of a request are walked in the order of their destinations, and a
node is entered where the last one of them enters it. Main statement: a tree is built exactly if the
chains arrive and share their first interface, and it has the nodes, the hops and the interfaces of the
chains and no others.
-/

namespace Multicast
open Std

def Request.Chain (request : Request) (snapshot : Snapshot) (destination : NodeId)
    (hops : List Hop) : Prop :=
  destination ∈ request.destinations ∧ snapshot.Chain destination request.source hops

namespace Tree

def inputAt (nodes : ExtTreeMap NodeId TreeNode) (node : NodeId) : InterfaceId :=
  (nodes[node]?.getD unvisited).input

theorem inputAt_extend (nodes : ExtTreeMap NodeId TreeNode) (hop : Hop) (node : NodeId) :
    inputAt (extend nodes hop) node =
      if hop.receiver = node then hop.inInterface else inputAt nodes node := by
  simp only [inputAt, extend, ExtTreeMap.getElem?_insert, Std.compare_eq_iff_eq]
  by_cases received : hop.receiver = node
  · simp [received]
  · by_cases sent : hop.sender = node
    · simp [received, sent]
    · simp [received, sent]

theorem inputAt_foldl_of_avoids (hops : List Hop) (nodes : ExtTreeMap NodeId TreeNode)
    (node : NodeId) (avoids : ∀ hop ∈ hops, hop.receiver ≠ node) :
    inputAt (hops.foldl extend nodes) node = inputAt nodes node := by
  induction hops generalizing nodes with
  | nil => rfl
  | cons hop rest ih =>
    obtain ⟨other, others⟩ := List.forall_mem_cons.1 avoids
    rw [List.foldl_cons, ih _ others, inputAt_extend, if_neg other]

theorem inputAt_foldl_of_mem (hops : List Hop) (nodes : ExtTreeMap NodeId TreeNode) (hop : Hop)
    (once : (hops.map Hop.receiver).Nodup) (member : hop ∈ hops) :
    inputAt (hops.foldl extend nodes) hop.receiver = hop.inInterface := by
  induction hops generalizing nodes with
  | nil => cases member
  | cons first rest ih =>
    rw [List.map_cons, List.nodup_cons] at once
    rw [List.foldl_cons]
    rcases List.mem_cons.1 member with rfl | inside
    · rw [inputAt_foldl_of_avoids rest _ _ fun other listed same =>
        once.1 (List.mem_map.2 ⟨other, listed, same⟩), inputAt_extend, if_pos rfl]
    · exact ih _ once.2 inside

/-- The largest destination whose chain leads through a node decides its input. -/
theorem inputAt_foldl_of_largest (snapshot : Snapshot) (source : NodeId)
    (destinations : List NodeId) (walked : List (List Hop))
    (each : List.Forall₂ (fun destination hops => snapshot.Chain destination source hops)
      destinations walked)
    (ascending : destinations.Pairwise (· < ·)) (destination : NodeId) (hops : List Hop) (hop : Hop)
    (listed : destination ∈ destinations) (chain : snapshot.Chain destination source hops)
    (crosses : hop ∈ hops)
    (largest : ∀ other ∈ destinations, ∀ others, snapshot.Chain other source others →
      hop.receiver ∈ others.map Hop.receiver → other ≤ destination)
    (nodes : ExtTreeMap NodeId TreeNode) :
    inputAt (walked.flatten.foldl extend nodes) hop.receiver = hop.inInterface := by
  induction each generalizing nodes with
  | nil => cases listed
  | @cons first path destinations walked found later ih =>
    obtain ⟨after, ascending⟩ := List.pairwise_cons.1 ascending
    rw [List.flatten_cons, List.foldl_append]
    rcases List.mem_cons.1 listed with rfl | inside
    · -- The chains that are walked later do not lead through the node.
      have avoids : ∀ other ∈ walked.flatten, other.receiver ≠ hop.receiver := by
        intro other member same
        obtain ⟨next, known, own, walk, crossed⟩ :=
          Traversal.exists_of_mem_flatten _ _ _ later other member
        have least := largest next (List.mem_cons_of_mem _ known) own walk
          (List.mem_map.2 ⟨other, crossed, same⟩)
        exact absurd (after next known) (Nat.not_lt_of_le least)
      have paths := (snapshot.path_eq_ok_iff _ _ hops).2 chain
      cases ((snapshot.path_eq_ok_iff _ _ path).2 found).symm.trans paths
      have visits := chain.nodup_visited snapshot destination source hops
      rw [inputAt_foldl_of_avoids _ _ _ avoids]
      exact inputAt_foldl_of_mem _ _ hop (List.nodup_cons.1 visits).2 crosses
    · exact ih ascending inside
        (fun other known => largest other (List.mem_cons_of_mem _ known)) _

theorem inputAt_nodesOf (source : NodeId) (hops : List Hop) (node : NodeId) :
    inputAt (nodesOf source hops) node =
      if source = node then noInterface
      else inputAt (hops.foldl extend ((∅ : ExtTreeMap NodeId TreeNode).insert source unvisited))
        node := by
  simp only [inputAt, nodesOf, ExtTreeMap.getElem?_insert, Std.compare_eq_iff_eq]
  by_cases same : source = node
  · simp [same]
  · simp [same]

/-- A tree has what the chains of a request have, and nothing else. -/
structure Unites (tree : Tree) (request : Request) (snapshot : Snapshot) : Prop where
  nodes (node : NodeId) : node ∈ tree.nodes ↔ ∃ destination hops,
    request.Chain snapshot destination hops ∧ node ∈ Snapshot.visited request.source hops
  hops (hop : Hop) : hop ∈ tree.hops ↔ ∃ destination hops,
    request.Chain snapshot destination hops ∧ hop ∈ hops
  outputs (node : NodeId) (interface : InterfaceId) : interface ∈ outputsAt tree.nodes node ↔
    ∃ destination hops, request.Chain snapshot destination hops ∧
      ∃ hop ∈ hops, hop.sender = node ∧ hop.outInterface = interface
  egress (interface : InterfaceId) :
    interface ∈ outputsAt tree.nodes request.source ↔ interface = tree.origin.interface
  leaf (node : NodeId) (ends : ∀ destination hops, request.Chain snapshot destination hops →
    node ∈ Snapshot.visited request.source hops → node = destination) :
    outputsAt tree.nodes node = ∅
  away (hop : Hop) (member : hop ∈ tree.hops) : hop.receiver ≠ request.source
  root : inputAt tree.nodes request.source = noInterface
  /-- A node is entered where the chain to the largest destination behind it enters it. -/
  input (node : NodeId) (member : node ∈ tree.nodes) (other : node ≠ request.source) :
    ∃ destination hops, request.Chain snapshot destination hops ∧
      (∃ hop ∈ hops, hop.receiver = node ∧ inputAt tree.nodes node = hop.inInterface) ∧
      ∀ smaller others, request.Chain snapshot smaller others →
        node ∈ Snapshot.visited request.source others → smaller ≤ destination

section
variable (request : Request) (snapshot : Snapshot) (tree : Tree)
  (built : build request snapshot = .ok tree)
include built

theorem mem_hops_iff_chain (hop : Hop) : hop ∈ tree.hops ↔ ∃ destination hops,
    request.Chain snapshot destination hops ∧ hop ∈ hops := by
  rw [mem_hops request snapshot tree built]
  constructor
  · rintro ⟨destination, listed, hops, path, inside⟩
    exact ⟨destination, hops, ⟨listed, (snapshot.path_eq_ok_iff ..).1 path⟩, inside⟩
  · rintro ⟨destination, hops, ⟨listed, chain⟩, inside⟩
    exact ⟨destination, listed, hops, (snapshot.path_eq_ok_iff ..).2 chain, inside⟩

theorem mem_nodes_iff_chain (node : NodeId) : node ∈ tree.nodes ↔ ∃ destination hops,
    request.Chain snapshot destination hops ∧ node ∈ Snapshot.visited request.source hops := by
  rw [mem_nodes request snapshot tree built]
  simp only [mem_hops_iff_chain request snapshot tree built]
  constructor
  · rintro (rfl | ⟨hop, ⟨destination, hops, chain, inside⟩, rfl | rfl⟩)
    · obtain ⟨destination, listed⟩ := exists_destination request snapshot tree built
      obtain ⟨hops, path⟩ := exists_path request snapshot tree built destination listed
      exact ⟨destination, hops, ⟨listed, (snapshot.path_eq_ok_iff ..).1 path⟩, List.mem_cons_self⟩
    · refine ⟨destination, hops, chain, ?_⟩
      rw [chain.2.visited_eq]
      exact List.mem_append_left _ (List.mem_map.2 ⟨hop, inside, rfl⟩)
    · exact ⟨destination, hops, chain, List.mem_cons_of_mem _ (List.mem_map.2 ⟨hop, inside, rfl⟩)⟩
  · rintro ⟨destination, hops, chain, visits⟩
    rcases List.mem_cons.1 visits with here | later
    · exact .inl here
    · obtain ⟨hop, inside, enters⟩ := List.mem_map.1 later
      exact .inr ⟨hop, ⟨destination, hops, chain, inside⟩, .inr enters⟩

theorem mem_outputs_iff_chain (node : NodeId) (interface : InterfaceId) :
    interface ∈ outputsAt tree.nodes node ↔ ∃ destination hops,
      request.Chain snapshot destination hops ∧
        ∃ hop ∈ hops, hop.sender = node ∧ hop.outInterface = interface := by
  rw [mem_outputs_of_build request snapshot tree built]
  simp only [mem_hops_iff_chain request snapshot tree built]
  constructor
  · rintro ⟨hop, ⟨destination, hops, chain, inside⟩, leaves⟩
    exact ⟨destination, hops, chain, hop, inside, leaves⟩
  · rintro ⟨destination, hops, chain, hop, inside, leaves⟩
    exact ⟨hop, ⟨destination, hops, chain, inside⟩, leaves⟩

theorem outputs_eq_empty (node : NodeId)
    (ends : ∀ destination hops, request.Chain snapshot destination hops →
      node ∈ Snapshot.visited request.source hops → node = destination) :
    outputsAt tree.nodes node = ∅ := by
  rw [ExtTreeSet.eq_empty_iff_forall_not_mem]
  intro interface leaves
  obtain ⟨destination, hops, chain, hop, inside, sent, _⟩ :=
    (mem_outputs_iff_chain request snapshot tree built node interface).1 leaves
  have visits : node ∈ Snapshot.visited request.source hops := by
    rw [chain.2.visited_eq]
    exact List.mem_append_left _ (List.mem_map.2 ⟨hop, inside, sent⟩)
  have away := chain.2.sender_ne _ _ _ _ hop inside
  exact away (sent.trans (ends destination hops chain visits))

theorem input_of_largest (destination : NodeId) (hops : List Hop) (hop : Hop)
    (chain : request.Chain snapshot destination hops) (crosses : hop ∈ hops)
    (largest : ∀ smaller others, request.Chain snapshot smaller others →
      hop.receiver ∈ Snapshot.visited request.source others → smaller ≤ destination) :
    inputAt tree.nodes hop.receiver = hop.inInterface := by
  have away := receiver_ne_source request snapshot tree built hop
    ((mem_hops_iff_chain request snapshot tree built hop).2 ⟨destination, hops, chain, crosses⟩)
  obtain ⟨_, _, walked, egress, walks, _, rfl⟩ := (build_eq_ok ..).1 built
  have each : List.Forall₂ (fun destination hops => snapshot.Chain destination request.source hops)
      request.destinations.toList walked :=
    ((Traversal.mapM_eq_ok ..).1 walks).imp fun _ _ walk =>
      (snapshot.path_eq_ok_iff ..).1 ((pathTo_eq_ok ..).1 walk)
  have ascending : request.destinations.toList.Pairwise (· < ·) :=
    ExtTreeSet.ordered_toList.imp fun before => Nat.compare_eq_lt.1 before
  rw [ofPaths, inputAt_nodesOf, if_neg (Ne.symm away)]
  exact inputAt_foldl_of_largest snapshot request.source _ walked each ascending destination hops hop
    (ExtTreeSet.mem_toList.2 chain.1) chain.2 crosses
    (fun smaller listed others walk enters => largest smaller others
      ⟨ExtTreeSet.mem_toList.1 listed, walk⟩ (List.mem_cons_of_mem _ enters)) _

theorem exists_largest (node : NodeId) (member : node ∈ tree.nodes) : ∃ destination hops,
    request.Chain snapshot destination hops ∧ node ∈ Snapshot.visited request.source hops ∧
      ∀ smaller others, request.Chain snapshot smaller others →
        node ∈ Snapshot.visited request.source others → smaller ≤ destination := by
  classical
  let behind := request.destinations.toList.toFinset.filter fun destination => ∃ hops,
    request.Chain snapshot destination hops ∧ node ∈ Snapshot.visited request.source hops
  have mem_behind (destination : NodeId) : destination ∈ behind ↔ ∃ hops,
      request.Chain snapshot destination hops ∧ node ∈ Snapshot.visited request.source hops := by
    rw [Finset.mem_filter, List.mem_toFinset, ExtTreeSet.mem_toList]
    exact and_iff_right_of_imp fun ⟨_, chain, _⟩ => chain.1
  obtain ⟨first, hops, chain, visits⟩ := (mem_nodes_iff_chain request snapshot tree built node).1 member
  obtain ⟨destination, inside, largest⟩ :=
    behind.exists_max_image id ⟨first, (mem_behind first).2 ⟨hops, chain, visits⟩⟩
  obtain ⟨hops, chain, visits⟩ := (mem_behind destination).1 inside
  exact ⟨destination, hops, chain, visits, fun smaller others walk enters =>
    largest smaller ((mem_behind smaller).2 ⟨others, walk, enters⟩)⟩

theorem unites_of_build : tree.Unites request snapshot where
  nodes := mem_nodes_iff_chain request snapshot tree built
  hops := mem_hops_iff_chain request snapshot tree built
  outputs := mem_outputs_iff_chain request snapshot tree built
  egress interface := by
    obtain ⟨_, _, walked, egress, _, single, rfl⟩ := (build_eq_ok ..).1 built
    exact single interface
  leaf := outputs_eq_empty request snapshot tree built
  away := receiver_ne_source request snapshot tree built
  root := by
    obtain ⟨_, _, walked, egress, _, _, rfl⟩ := (build_eq_ok ..).1 built
    rw [ofPaths, inputAt_nodesOf, if_pos rfl]
  input node member other := by
    obtain ⟨destination, hops, chain, visits, largest⟩ :=
      exists_largest request snapshot tree built node member
    obtain ⟨hop, inside, rfl⟩ := List.mem_map.1 ((List.mem_cons.1 visits).resolve_left other)
    exact ⟨destination, hops, chain, ⟨hop, inside, rfl,
      input_of_largest request snapshot tree built destination hops hop chain inside largest⟩, largest⟩

theorem sharesEgress_of_build : SharesEgress request snapshot tree.origin.interface := by
  intro destination listed next found
  obtain ⟨_, away, _⟩ := (build_eq_ok ..).1 built
  have apart : request.source ≠ destination := fun same => away (same ▸ listed)
  obtain ⟨hops, path⟩ := exists_path request snapshot tree built destination listed
  obtain ⟨next', found', first⟩ := snapshot.path_first _ _ hops path apart
  cases found.symm.trans found'
  exact ((unites_of_build request snapshot tree built).egress next.outInterface).1
    ((mem_outputs_iff_chain request snapshot tree built _ _).2 ⟨destination, hops,
      ⟨listed, (snapshot.path_eq_ok_iff ..).1 path⟩, _, first, rfl, rfl⟩)

end

theorem exists_build_iff (request : Request) (snapshot : Snapshot) :
    (∃ tree, build request snapshot = .ok tree) ↔
      (∃ destination, destination ∈ request.destinations) ∧
      request.source ∉ request.destinations ∧
      (∀ destination ∈ request.destinations,
        ∃ hops, snapshot.Chain destination request.source hops) ∧
      ∃ egress, SharesEgress request snapshot egress := by
  constructor
  · rintro ⟨tree, built⟩
    obtain ⟨_, away, _⟩ := (build_eq_ok ..).1 built
    refine ⟨exists_destination request snapshot tree built, away, fun destination listed => ?_, _,
      sharesEgress_of_build request snapshot tree built⟩
    obtain ⟨hops, path⟩ := exists_path request snapshot tree built destination listed
    exact ⟨hops, (snapshot.path_eq_ok_iff ..).1 path⟩
  · rintro ⟨inhabited, away, arrive, egress, shared⟩
    rcases build_of_shared request snapshot egress inhabited away shared with
      success | ⟨destination, listed, error, failed, _⟩
    · exact success
    · obtain ⟨hops, chain⟩ := arrive destination listed
      have walk := (pathTo_eq_ok ..).2 ((snapshot.path_eq_ok_iff ..).2 chain)
      rw [failed] at walk
      cases walk

/-- A tree is built exactly if there are destinations, the source is none of them, the chains to all of
them arrive and their first hops share an interface; and it has what the chains have. -/
theorem build_unites_chains (request : Request) (snapshot : Snapshot) :
    ((∃ tree, build request snapshot = .ok tree) ↔
      (∃ destination, destination ∈ request.destinations) ∧
      request.source ∉ request.destinations ∧
      (∀ destination ∈ request.destinations,
        ∃ hops, snapshot.Chain destination request.source hops) ∧
      ∃ egress, SharesEgress request snapshot egress) ∧
    ∀ tree, build request snapshot = .ok tree → tree.Unites request snapshot :=
  ⟨exists_build_iff request snapshot, unites_of_build request snapshot⟩

theorem build_unites_chains_diamond : ∃ tree,
    build diamondSchedule[0] (.diamond 0 1) = .ok tree ∧
      tree.Unites diamondSchedule[0] (.diamond 0 1) ∧ inputAt tree.nodes 1 = 1 ∧
      (outputsAt tree.nodes 1).toList = [2] := by
  have succeeds : (build diamondSchedule[0] (.diamond 0 1)).toOption.any (fun tree =>
      inputAt tree.nodes 1 = 1 ∧ (outputsAt tree.nodes 1).toList = [2]) = true := by decide +kernel
  cases built : build diamondSchedule[0] (.diamond 0 1) with
  | error error =>
    rw [built] at succeeds
    cases succeeds
  | ok tree =>
    rw [built] at succeeds
    exact ⟨tree, rfl, (build_unites_chains _ _).2 tree built, of_decide_eq_true succeeds⟩

end Tree
end Multicast
