import Multicast.Bier.Table
import Multicast.Proofs.Traversal

/-!
Replication. Main statement: whatever a table holds, the copies that a node sends share the positions
of the packet among them, without the position of the node itself, and none of them is empty.
-/

namespace Multicast

namespace Bitstring

def Disjoint (one other : Bitstring) : Prop :=
  ∀ position, one.test position = true → other.test position = false

theorem Disjoint.symm (one other : Bitstring) (disjoint : one.Disjoint other) :
    other.Disjoint one := by
  intro position inside
  cases inside' : one.test position with
  | false => rfl
  | true => exact absurd inside (by simp [disjoint position inside'])

theorem test_zero (position : Nat) : zero.test position = false := by
  simp [zero, test]

theorem test_and (one other : Bitstring) (position : Nat) :
    (one &&& other).test position = (one.test position && other.test position) :=
  BitVec.getLsbD_and

theorem test_or (one other : Bitstring) (position : Nat) :
    (one ||| other).test position = (one.test position || other.test position) :=
  BitVec.getLsbD_or

theorem test_xor (one other : Bitstring) (position : Nat) :
    (one ^^^ other).test position = (one.test position ^^ other.test position) :=
  BitVec.getLsbD_xor

theorem test_single (position other : Nat) :
    (single position).test other = (decide (position < bitCount) && decide (position = other)) :=
  BitVec.getLsbD_twoPow position other

theorem test_without (bitstring removed : Bitstring) (position : Nat) :
    (bitstring.without removed).test position =
      (bitstring.test position && !removed.test position) := by
  simp only [without, test, BitVec.getLsbD_and, BitVec.getLsbD_not]
  by_cases inside : position < bitCount
  · simp [inside]
  · simp [BitVec.getLsbD_of_ge bitstring.bits position (Nat.le_of_not_lt inside)]

theorem test_of_clear (bitstring cleared : Bitstring) (position : Nat)
    (found : bitstring.clear position = .ok cleared) (other : Nat) :
    cleared.test other = true ↔ bitstring.test other = true ∧ other ≠ position := by
  unfold clear at found
  split at found
  case isFalse => cases found
  case isTrue bounded =>
    cases found
    rw [test_without, test_single, decide_eq_true bounded, Bool.true_and, Bool.and_eq_true,
      Bool.not_eq_true', decide_eq_false_iff_not, ne_comm]

theorem isZero_of_test (bitstring : Bitstring) (position : Nat)
    (inside : bitstring.test position = true) : bitstring.isZero = false := by
  unfold isZero
  rw [decide_eq_false_iff_not]
  intro empty
  rw [test, empty] at inside
  simp at inside

end Bitstring

/-- Copies that share positions of a bitstring among them. -/
structure Replica.Share (replicas : List Replica) (bitstring : Bitstring) : Prop where
  inhabited : ∀ replica ∈ replicas, replica.bitstring.isZero = false
  within : ∀ replica ∈ replicas, ∀ position, replica.bitstring.test position = true →
    bitstring.test position = true
  disjoint : replicas.Pairwise fun one other => one.bitstring.Disjoint other.bitstring

namespace BierTable

theorem replicate_cons_eq_ok (table : BierTable) (position : Nat) (later : List Nat)
    (remaining : Bitstring) (replicas : List Replica)
    (sent : table.replicate (position :: later) remaining = .ok replicas) :
    table.replicate later remaining = .ok replicas ∨
      ∃ (entry : BierEntry) (rest : List Replica), (remaining &&& entry.mask).test position = true ∧
        table.replicate later (remaining ^^^ (remaining &&& entry.mask)) = .ok rest ∧
        replicas = ⟨entry.nextHop, entry.outInterface, remaining &&& entry.mask⟩ :: rest := by
  unfold replicate at sent
  split at sent
  case isFalse => exact .inl sent
  case isTrue =>
    split at sent
    · cases sent
    · rename_i entry _
      dsimp only at sent
      split at sent
      case isFalse => cases sent
      case isTrue covered =>
        split at sent
        · cases sent
        · rename_i rest others
          cases sent
          exact .inr ⟨entry, rest, covered, others, rfl⟩

theorem share_of_replicate (table : BierTable) (listed : List Nat) (remaining : Bitstring)
    (replicas : List Replica) (sent : table.replicate listed remaining = .ok replicas) :
    Replica.Share replicas remaining := by
  induction listed generalizing remaining replicas with
  | nil =>
    cases sent
    exact ⟨by simp, by simp, .nil⟩
  | cons position later ih =>
    rcases replicate_cons_eq_ok _ _ _ _ _ sent with same | ⟨entry, rest, covered, others, rfl⟩
    · exact ih remaining replicas same
    · have shared := ih _ rest others
      have first (place : Nat) (inside : (remaining &&& entry.mask).test place = true) :
          remaining.test place = true := by
        rw [Bitstring.test_and, Bool.and_eq_true] at inside
        exact inside.1
      -- What is left after the first copy has none of its positions.
      have left (place : Nat)
          (inside : (remaining ^^^ (remaining &&& entry.mask)).test place = true) :
          remaining.test place = true ∧ (remaining &&& entry.mask).test place = false := by
        rw [Bitstring.test_xor, Bitstring.test_and] at inside
        rw [Bitstring.test_and]
        revert inside
        cases remaining.test place <;> simp
      refine ⟨?_, ?_, ?_⟩
      · exact List.forall_mem_cons.2
          ⟨Bitstring.isZero_of_test _ position covered, shared.inhabited⟩
      · refine List.forall_mem_cons.2 ⟨first, fun replica member place inside => ?_⟩
        exact (left place (shared.within replica member place inside)).1
      · refine List.pairwise_cons.2 ⟨fun replica member => ?_, shared.disjoint⟩
        apply Bitstring.Disjoint.symm
        intro place inside
        exact (left place (shared.within replica member place inside)).2

theorem share_of_forward (table : BierTable) (bitstring : Bitstring) (replicas : List Replica)
    (sent : table.forward bitstring = .ok replicas) : Replica.Share replicas bitstring :=
  table.share_of_replicate _ bitstring replicas sent

/-- What a node does with a bitstring: it keeps the packet only for its own position, and the copies
share the other positions. -/
theorem share_of_process (table : BierTable) (bitstring : Bitstring) (decision : BierDecision)
    (processed : table.process bitstring = .ok decision) :
    Replica.Share decision.replicas bitstring ∧
      (decision.deliverLocally = true →
        ∃ position, table.localPosition = some position ∧ bitstring.test position = true) ∧
      ∀ position, table.localPosition = some position →
        ∀ replica ∈ decision.replicas, replica.bitstring.test position = false := by
  unfold process at processed
  cases own : table.localPosition with
  | none =>
    rw [own] at processed
    obtain ⟨replicas, sent, same⟩ := (Traversal.bind_eq_ok ..).1 processed
    cases same
    exact ⟨table.share_of_forward _ _ sent, by simp, by simp⟩
  | some position =>
    rw [own] at processed
    dsimp only at processed
    split at processed
    case isTrue inside =>
      obtain ⟨others, cleared, sent⟩ := (Traversal.bind_eq_ok ..).1 processed
      obtain ⟨replicas, forwarded, same⟩ := (Traversal.bind_eq_ok ..).1 sent
      cases same
      have shared := table.share_of_forward _ _ forwarded
      have rest := bitstring.test_of_clear others position cleared
      refine ⟨⟨shared.inhabited, fun replica member place within => ?_, shared.disjoint⟩,
        fun _ => ⟨position, rfl, inside⟩, ?_⟩
      · exact ((rest place).1 (shared.within replica member place within)).1
      · rintro _ ⟨⟩ replica member
        by_contra within
        have kept := shared.within replica member position (by simpa using within)
        exact ((rest position).1 kept).2 rfl
    case isFalse outside =>
      obtain ⟨replicas, sent, same⟩ := (Traversal.bind_eq_ok ..).1 processed
      cases same
      have shared := table.share_of_forward _ _ sent
      refine ⟨shared, by simp, ?_⟩
      rintro _ ⟨⟩ replica member
      by_contra inside
      exact outside (shared.within replica member position (by simpa using inside))

end BierTable
end Multicast
