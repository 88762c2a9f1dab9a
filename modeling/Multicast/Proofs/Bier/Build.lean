import Multicast.Bier.Build
import Multicast.Proofs.Bier.Replicate
import Multicast.Proofs.Traversal

/-!
Tables and addresses. Every table knows the position of its own node, and the bitstring of a list of
nodes has the positions of these nodes only.
-/

namespace Multicast

namespace BierTable

theorem localPosition_install (table : BierTable) (entries : List BierEntry) :
    (entries.foldl install table).localPosition = table.localPosition := by
  induction entries generalizing table with
  | nil => rfl
  | cons entry rest ih => exact ih (table.install entry)

theorem localPosition_installGroup (positions : BitPositions) (table later : BierTable)
    (entry : (NodeId × InterfaceId) × List Nat)
    (installed : installGroup positions table entry = .ok later) :
    later.localPosition = table.localPosition := by
  obtain ⟨mask, _, installed⟩ := (Traversal.bind_eq_ok ..).1 installed
  cases installed
  have filled := localPosition_install table (entry.2.map fun position =>
    ⟨position, mask, entry.1.1, positions.positionOf? entry.1.1, entry.1.2⟩)
  rwa [List.foldl_map] at filled

theorem localPosition_build (snapshot : Snapshot) (positions : BitPositions) (node : NodeId)
    (table : BierTable) (built : build snapshot positions node = .ok table) :
    table.localPosition = positions.positionOf? node := by
  refine Traversal.foldlM_keeps (fun table => table.localPosition = positions.positionOf? node)
    (installGroup positions) ?_ _ _ table rfl built
  intro table entry later kept installed
  exact (localPosition_installGroup positions table later entry installed).trans kept

theorem localPosition_buildAll (snapshot : Snapshot) (positions : BitPositions)
    (tables : List BierTable) (built : buildAll snapshot positions = .ok tables) (node : NodeId)
    (table : BierTable) (found : tables[node]? = some table) :
    table.localPosition = positions.positionOf? node := by
  have each := (Traversal.mapM_eq_ok ..).1 built
  obtain ⟨inside, rfl⟩ := List.getElem?_eq_some_iff.1 found
  have known : node < (List.range snapshot.nodeCount).length := by rwa [each.length_eq]
  have own := each.get known inside
  simp only [List.get_eq_getElem, List.getElem_range] at own
  exact localPosition_build snapshot positions node _ own

end BierTable

namespace BitPositions

theorem test_of_set (bitstring later : Bitstring) (position other : Nat)
    (set : bitstring.set position = .ok later) (inside : later.test other = true) :
    bitstring.test other = true ∨ other = position := by
  unfold Bitstring.set at set
  split at set
  case isFalse => cases set
  case isTrue =>
    cases set
    rw [Bitstring.test_or, Bitstring.test_single, Bool.or_eq_true, Bool.and_eq_true,
      decide_eq_true_eq, decide_eq_true_eq] at inside
    exact inside.imp_right fun single => single.2.symm

def address (assigned : BitPositions) (bitstring : Bitstring) (node : NodeId) :
    Except BierError Bitstring :=
  match assigned.positionOf? node with
  | none => .error (.unassignedNode node)
  | some position => bitstring.set position

theorem bitstringFor_eq_foldlM (assigned : BitPositions) (nodes : List NodeId) :
    assigned.bitstringFor nodes = nodes.foldlM assigned.address .zero := rfl

theorem test_of_address (assigned : BitPositions) (bitstring later : Bitstring) (node : NodeId)
    (added : assigned.address bitstring node = .ok later) (position : Nat)
    (inside : later.test position = true) :
    bitstring.test position = true ∨ assigned.positionOf? node = some position := by
  unfold address at added
  split at added
  · cases added
  · rename_i own found
    rcases test_of_set bitstring later own position added inside with old | rfl
    · exact .inl old
    · exact .inr found

theorem test_of_foldlM (assigned : BitPositions) (nodes : List NodeId) (first last : Bitstring)
    (found : nodes.foldlM assigned.address first = .ok last) (position : Nat)
    (inside : last.test position = true) :
    first.test position = true ∨ ∃ node ∈ nodes, assigned.positionOf? node = some position := by
  induction nodes generalizing first with
  | nil =>
    cases found
    exact .inl inside
  | cons node rest ih =>
    obtain ⟨next, added, found⟩ := (Traversal.foldlM_cons_eq_ok ..).1 found
    rcases ih next found with before | ⟨other, member, own⟩
    · exact (assigned.test_of_address first next node added position before).imp_right
        fun own => ⟨node, List.mem_cons_self, own⟩
    · exact .inr ⟨other, List.mem_cons_of_mem _ member, own⟩

theorem test_bitstringFor (assigned : BitPositions) (nodes : List NodeId) (bitstring : Bitstring)
    (found : assigned.bitstringFor nodes = .ok bitstring) (position : Nat)
    (inside : bitstring.test position = true) :
    ∃ node ∈ nodes, assigned.positionOf? node = some position := by
  rw [bitstringFor_eq_foldlM] at found
  apply (assigned.test_of_foldlM nodes .zero bitstring found position inside).resolve_left
  simp [Bitstring.test_zero]

end BitPositions
end Multicast
