import Multicast.Experiment.Run
import Multicast.Proofs.Bier.Entries

/-!
Faults of forwarding by bitstrings. Main statements: where the positions of nodes were given one by one,
a bitstring is only missing for want of a node's position; the table of a node only fails at a position
that it has no entry for; and numbered nodes have positions.
-/

namespace Multicast
open Std

namespace BitPositions

theorem bitstringFor_eq_error (assigned : BitPositions) (inverse : assigned.Inverse)
    (nodes : List NodeId) (error : BierError) (failed : assigned.bitstringFor nodes = .error error) :
    ∃ node ∈ nodes, assigned.positionOf? node = none ∧ error = .unassignedNode node := by
  rw [bitstringFor_eq_foldlM] at failed
  obtain ⟨node, listed, bitstring, failed⟩ := Traversal.foldlM_eq_error _ _ _ _ failed
  unfold address at failed
  split at failed
  · rename_i absent
    cases failed
    exact ⟨node, listed, absent, rfl⟩
  · rename_i position own
    unfold Bitstring.set at failed
    rw [if_pos (inverse.bounded node position own)] at failed
    cases failed

theorem exists_position_of_sequential (nodes : List NodeId) (assigned : BitPositions)
    (made : sequential nodes = .ok assigned) (node : NodeId) (member : node ∈ nodes) :
    ∃ position, assigned.positionOf? node = some position := by
  have kept (entries : List (NodeId × Nat)) (first last : BitPositions)
      (folded : entries.foldlM (fun assigned entry => assigned.assign entry.1 entry.2) first =
        .ok last) :
      ∀ node, (∃ position, first.positionOf? node = some position) ∨ node ∈ entries.map Prod.fst →
        ∃ position, last.positionOf? node = some position := by
    induction entries generalizing first with
    | nil =>
      cases folded
      simp
    | cons entry rest ih =>
      obtain ⟨next, given, folded⟩ := (Traversal.foldlM_cons_eq_ok ..).1 folded
      rintro node held
      apply ih next folded
      rw [positionOf?_assign first next _ _ given]
      by_cases own : entry.1 = node
      · exact .inl ⟨entry.2, if_pos own⟩
      · rw [if_neg own]
        refine held.imp_right fun listed => ?_
        exact (List.mem_cons.1 listed).resolve_left fun same => own same.symm
  have numbered : nodes.zipIdx.map Prod.fst = nodes := List.zipIdx_map_fst 0 nodes
  exact kept _ _ _ made node (.inr (by rwa [numbered]))

theorem exists_position_of_destinations (requests : List Request) (assigned : BitPositions)
    (made : sequential (ExperimentConfig.destinations requests) = .ok assigned) (request : Request)
    (listed : request ∈ requests) (node : NodeId) (member : node ∈ request.destinations) :
    ∃ position, assigned.positionOf? node = some position := by
  refine exists_position_of_sequential _ assigned made node ?_
  unfold ExperimentConfig.destinations
  rw [ExtTreeSet.mem_toList, ExtTreeSet.mem_ofList, List.contains_iff_mem, List.mem_flatMap]
  exact ⟨request, listed, ExtTreeSet.mem_toList.2 member⟩

end BitPositions

namespace BierTable
section
variable (snapshot : Snapshot) (positions : BitPositions) (node : NodeId) (table : BierTable)
  (routes : Routes snapshot positions node table)
include routes

theorem mask_of_lookup (position : Nat) (entry : BierEntry)
    (found : table.lookup position = .ok entry) : entry.mask.test position = true := by
  unfold lookup at found
  split at found
  · cases found
  · rename_i listed
    cases found
    obtain ⟨sends, mask⟩ := routes.entry position entry listed
    exact (mask position).2 sends

omit routes in
theorem lookup_eq_error (position : Nat) (error : BierError)
    (failed : table.lookup position = .error error) :
    table.entries[position]? = none ∧ error = .unknownBitPosition table.node position := by
  unfold lookup at failed
  split at failed
  · rename_i absent
    cases failed
    exact ⟨absent, rfl⟩
  · cases failed

theorem replicate_eq_error (listed : List Nat) (remaining : Bitstring) (error : BierError)
    (failed : table.replicate listed remaining = .error error) :
    ∃ position, table.entries[position]? = none ∧
      error = .unknownBitPosition table.node position := by
  induction listed generalizing remaining with
  | nil => cases failed
  | cons position later ih =>
    unfold replicate at failed
    split at failed
    · rename_i left
      split at failed
      · rename_i lost
        cases failed
        exact ⟨position, table.lookup_eq_error position _ lost⟩
      · rename_i entry found
        have own := mask_of_lookup snapshot positions node table routes position entry found
        dsimp only at failed
        rw [if_pos (by rw [Bitstring.test_and, left, own]; rfl)] at failed
        split at failed
        · rename_i failed'
          cases failed
          exact ih _ failed'
        · cases failed
    · exact ih _ failed

theorem process_eq_error (inverse : positions.Inverse) (bitstring : Bitstring) (error : BierError)
    (failed : table.process bitstring = .error error) :
    ∃ position, table.entries[position]? = none ∧
      error = .unknownBitPosition table.node position := by
  have forwards (delivers : Bool) (sent : Bitstring)
      (failed : (table.forward sent >>= fun replicas =>
        (.ok ⟨delivers, replicas⟩ : Except BierError BierDecision)) = .error error) :
      ∃ position, table.entries[position]? = none ∧
        error = .unknownBitPosition table.node position := by
    cases copies : table.forward sent with
    | error error' =>
      rw [copies] at failed
      cases failed
      exact replicate_eq_error snapshot positions node table routes _ _ error copies
    | ok replicas =>
      rw [copies] at failed
      cases failed
  unfold process at failed
  split at failed
  · exact forwards false bitstring failed
  · rename_i position here
    split at failed
    · have fits := inverse.bounded node position (routes.own ▸ here)
      have cleared : bitstring.clear position = .ok (bitstring.without (.single position)) :=
        if_pos fits
      rw [cleared] at failed
      exact forwards true _ failed
    · exact forwards false bitstring failed

omit routes in
theorem exists_lookup_of_replicate (listed : List Nat) (remaining : Bitstring)
    (replicas : List Replica) (sent : table.replicate listed remaining = .ok replicas)
    (replica : Replica) (member : replica ∈ replicas) :
    ∃ (position : Nat) (entry : BierEntry), table.entries[position]? = some entry ∧
      replica.nextHop = entry.nextHop ∧ replica.outInterface = entry.outInterface := by
  induction listed generalizing remaining replicas with
  | nil =>
    cases sent
    cases member
  | cons position later ih =>
    unfold replicate at sent
    split at sent
    · split at sent
      · cases sent
      · rename_i entry found
        dsimp only at sent
        split at sent
        · split at sent
          · cases sent
          · rename_i rest sent'
            cases sent
            rcases List.mem_cons.1 member with rfl | member
            · unfold lookup at found
              split at found
              · cases found
              · rename_i listed
                cases found
                exact ⟨position, entry, listed, rfl, rfl⟩
            · exact ih _ rest sent' member
        · cases sent
    · exact ih _ replicas sent member

omit routes in
theorem exists_forward_of_process (bitstring : Bitstring) (decision : BierDecision)
    (processed : table.process bitstring = .ok decision) :
    ∃ sent, table.forward sent = .ok decision.replicas := by
  unfold process at processed
  split at processed
  · obtain ⟨replicas, sent, same⟩ := (Traversal.bind_eq_ok ..).1 processed
    cases same
    exact ⟨_, sent⟩
  · split at processed
    · obtain ⟨_, _, processed⟩ := (Traversal.bind_eq_ok ..).1 processed
      obtain ⟨replicas, sent, same⟩ := (Traversal.bind_eq_ok ..).1 processed
      cases same
      exact ⟨_, sent⟩
    · obtain ⟨replicas, sent, same⟩ := (Traversal.bind_eq_ok ..).1 processed
      cases same
      exact ⟨_, sent⟩

theorem nextHop_lt_of_process (bitstring : Bitstring) (decision : BierDecision)
    (processed : table.process bitstring = .ok decision) (replica : Replica)
    (member : replica ∈ decision.replicas) : replica.nextHop < snapshot.nodeCount := by
  obtain ⟨sent, forwarded⟩ := table.exists_forward_of_process bitstring decision processed
  obtain ⟨position, entry, found, hop, _⟩ :=
    table.exists_lookup_of_replicate _ sent _ forwarded replica member
  obtain ⟨⟨destination, _, _, way⟩, _⟩ := routes.entry position entry found
  obtain ⟨next, resolved, same⟩ := (snapshot.way?_eq_some ..).1 way
  have neighbor : entry.nextHop = next.node := congrArg Prod.fst same
  rw [hop, neighbor]
  exact ((snapshot.nextHop_eq_ok ..).1 resolved).2.2.2.1

end
end BierTable
end Multicast
