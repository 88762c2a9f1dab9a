import Multicast.Proofs.Unicast.Path
import Mathlib.Data.List.Perm.Subperm

/-!
Chains. A chain takes the next hop towards a destination again and again until it is there, however
many hops that is. Main statements: a chain visits no node twice, so it has no more hops than there are
nodes, and a path is found exactly if a chain arrives.
-/

namespace Multicast.Snapshot

/-- Next hops taken from a node until the destination. -/
inductive Chain (snapshot : Snapshot) (destination : NodeId) : NodeId → List Hop → Prop where
  | arrived : Chain snapshot destination destination []
  | hop (node : NodeId) (next : NextHop) (rest : List Hop) (away : node ≠ destination)
    (found : snapshot.nextHop node destination = .ok next)
    (later : Chain snapshot destination next.node rest) :
    Chain snapshot destination node (hopFrom node next :: rest)

def visited (node : NodeId) (hops : List Hop) : List NodeId := node :: hops.map Hop.receiver

section
variable (snapshot : Snapshot) (destination node : NodeId) (hops : List Hop)

theorem chain_of_pathWithin (budget : Nat)
    (path : snapshot.pathWithin destination budget node = .ok hops) :
    snapshot.Chain destination node hops := by
  induction hops generalizing budget node with
  | nil =>
    rcases (pathWithin_eq_ok ..).1 path with ⟨rfl, _⟩ | ⟨_, _, _, _, _, _, _, absurd⟩
    · exact .arrived
    · cases absurd
  | cons hop rest ih =>
    obtain ⟨away, next, later, found, rfl, inner⟩ := pathWithin_cons _ _ _ _ _ _ path
    exact .hop node next rest away found (ih next.node later inner)

variable (chain : snapshot.Chain destination node hops)
include chain

theorem pathWithin_of_chain (budget : Nat) (enough : hops.length ≤ budget) :
    snapshot.pathWithin destination budget node = .ok hops := by
  induction chain generalizing budget with
  | arrived => exact pathWithin_self snapshot destination budget
  | hop node next rest away found later ih =>
    cases budget with
    | zero => cases enough
    | succ budget =>
      rw [pathWithin_succ _ _ _ _ away, found]
      dsimp only
      rw [ih budget (Nat.le_of_succ_le_succ enough)]

theorem Chain.visited_eq : visited node hops = hops.map Hop.sender ++ [destination] := by
  induction chain with
  | arrived => rfl
  | hop node next rest away found later ih => exact congrArg (List.cons node) ih

theorem Chain.sender_ne (hop : Hop) (member : hop ∈ hops) : hop.sender ≠ destination := by
  induction chain with
  | arrived => cases member
  | hop node next rest away found later ih =>
    rcases List.mem_cons.1 member with rfl | inside
    · exact away
    · exact ih inside

theorem Chain.nodup_visited : (visited node hops).Nodup := by
  rw [Chain.visited_eq snapshot destination node hops chain, List.nodup_append]
  refine ⟨?_, List.nodup_singleton _, ?_⟩
  · exact pathWithin_senders_nodup snapshot destination node hops.length hops
      (pathWithin_of_chain snapshot destination node hops chain _ (Nat.le_refl _))
  · intro sender listed last same
    obtain ⟨hop, member, rfl⟩ := List.mem_map.1 listed
    rw [List.mem_singleton.1 same]
    exact chain.sender_ne snapshot destination node hops hop member

theorem Chain.length_le_nodeCount : hops.length ≤ snapshot.nodeCount := by
  have path := pathWithin_of_chain snapshot destination node hops chain _ (Nat.le_refl _)
  have inside : hops.map Hop.sender ⊆ List.range snapshot.nodeCount := by
    intro sender listed
    obtain ⟨hop, member, rfl⟩ := List.mem_map.1 listed
    obtain ⟨next, found, _⟩ := nextHop_of_mem _ _ _ _ _ path hop member
    exact List.mem_range.2 ((nextHop_eq_ok ..).1 found).1
  have least := (List.subperm_of_subset (pathWithin_senders_nodup _ _ _ _ _ path) inside).length_le
  rwa [List.length_map, List.length_range] at least

end

theorem path_eq_ok_iff (snapshot : Snapshot) (source destination : NodeId) (hops : List Hop) :
    snapshot.path source destination = .ok hops ↔ snapshot.Chain destination source hops := by
  constructor
  · exact chain_of_pathWithin snapshot destination source hops _
  · intro chain
    exact pathWithin_of_chain _ _ _ _ chain _
      (chain.length_le_nodeCount snapshot destination source hops)

end Multicast.Snapshot
