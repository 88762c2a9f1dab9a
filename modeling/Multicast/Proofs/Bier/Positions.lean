import Multicast.Proofs.Bier.Build
import Mathlib.Data.List.Induction

/-!
Positions of nodes. Main statements: an assignment made by giving nodes positions one by one keeps
its two directions inverse whatever calls succeed or fail, a refused call changes nothing, and the
bitstring of nodes that have positions has exactly these.
-/

namespace Multicast
open Std

namespace Bitstring

theorem exists_foldlM_set (positions : List Nat) (first : Bitstring)
    (bounded : ∀ position ∈ positions, position < bitCount) :
    ∃ last, positions.foldlM set first = .ok last ∧
      ∀ position, last.test position = true ↔
        first.test position = true ∨ position ∈ positions := by
  induction positions generalizing first with
  | nil => exact ⟨first, rfl, by simp⟩
  | cons own rest ih =>
    obtain ⟨fits, bounded⟩ := List.forall_mem_cons.1 bounded
    have added : first.set own = .ok (first ||| single own) := if_pos fits
    obtain ⟨last, folded, test⟩ := ih (first ||| single own) bounded
    refine ⟨last, (Traversal.foldlM_cons_eq_ok ..).2 ⟨_, added, folded⟩, fun position => ?_⟩
    rw [test, test_or, test_single, decide_eq_true fits, Bool.true_and, Bool.or_eq_true,
      decide_eq_true_eq, List.mem_cons, or_assoc, @eq_comm _ own]

theorem exists_ofPositions (positions : List Nat)
    (bounded : ∀ position ∈ positions, position < bitCount) :
    ∃ bitstring, ofPositions positions = .ok bitstring ∧
      ∀ position, bitstring.test position = true ↔ position ∈ positions := by
  obtain ⟨bitstring, folded, test⟩ := exists_foldlM_set positions zero bounded
  refine ⟨bitstring, folded, fun position => ?_⟩
  rw [test, test_zero, Bool.false_eq_true, false_or]

end Bitstring

namespace BitPositions

/-- The assignment is made from the empty one by giving positions to nodes, one at a time. Where a
position is refused, the assignment stays as it was. -/
inductive Assigned : BitPositions → Prop where
  | empty : Assigned .empty
  | assign (assigned later : BitPositions) (node : NodeId) (position : Nat)
    (earlier : Assigned assigned) (given : assigned.assign node position = .ok later) :
    Assigned later

/-- The two directions of an assignment are inverse, and its positions fit a bitstring. -/
structure Inverse (assigned : BitPositions) : Prop where
  nodeOf?_eq_some (node : NodeId) (position : Nat) :
    assigned.nodeOf? position = some node ↔ assigned.positionOf? node = some position
  bounded (node : NodeId) (position : Nat) (own : assigned.positionOf? node = some position) :
    position < bitCount

theorem inverse_empty : empty.Inverse where
  nodeOf?_eq_some := by simp [empty, nodeOf?, positionOf?]
  bounded := by simp [empty, positionOf?]

inductive Ends (assigned : BitPositions) (node : NodeId) (position : Nat) :
    Except BierError Unit → BitPositions → Prop where
  | outside (outside : bitCount ≤ position) :
    Ends assigned node position (.error (.bitOutOfRange position)) assigned
  | taken (owner : NodeId) (inside : position < bitCount)
    (held : assigned.nodeOf? position = some owner) (other : owner ≠ node) :
    Ends assigned node position (.error (.duplicateBitPosition position owner node)) assigned
  | moved (inside : position < bitCount)
    (free : ∀ owner, assigned.nodeOf? position = some owner → owner = node) :
    Ends assigned node position (.ok ()) (assigned.move node position)

theorem ends_assignInPlace (assigned : BitPositions) (node : NodeId) (position : Nat) :
    assigned.Ends node position (assigned.assignInPlace node position).1
      (assigned.assignInPlace node position).2 := by
  unfold assignInPlace
  split
  · exact .outside ‹_›
  · rename_i fits
    have inside := Nat.lt_of_not_le fits
    dsimp only
    cases held : assigned.nodeOf? position with
    | none =>
      rw [Option.getD_none, if_neg (not_not.2 rfl)]
      exact .moved inside (by simp [held])
    | some owner =>
      rw [Option.getD_some]
      split
      · exact .taken owner inside held ‹_›
      · rename_i same
        refine .moved inside fun other found => ?_
        rw [← Option.some.inj (held.symm.trans found)]
        exact not_not.1 same

theorem assign_eq_ok (assigned later : BitPositions) (node : NodeId) (position : Nat) :
    assigned.assign node position = .ok later ↔
      assigned.assignInPlace node position = (.ok (), later) := by
  unfold assign
  rcases assigned.assignInPlace node position with ⟨_ | ⟨⟩, after⟩ <;> simp

theorem ends_assign (assigned later : BitPositions) (node : NodeId) (position : Nat)
    (given : assigned.assign node position = .ok later) :
    position < bitCount ∧ (∀ owner, assigned.nodeOf? position = some owner → owner = node) ∧
      later = assigned.move node position := by
  have ways := assigned.ends_assignInPlace node position
  rw [(assign_eq_ok ..).1 given] at ways
  cases ways with
  | moved inside free => exact ⟨inside, free, rfl⟩

theorem positionOf?_move (assigned : BitPositions) (node : NodeId) (position : Nat)
    (other : NodeId) : (assigned.move node position).positionOf? other =
      if node = other then some position else assigned.positionOf? other := by
  unfold positionOf? move
  rw [ExtTreeMap.getElem?_insert]
  simp only [Std.compare_eq_iff_eq]

theorem nodeOf?_move (assigned : BitPositions) (node : NodeId) (position other : Nat) :
    (assigned.move node position).nodeOf? other = if position = other then some node
      else if assigned.positionOf? node = some other then none else assigned.nodeOf? other := by
  unfold nodeOf? move
  dsimp only
  rw [ExtTreeMap.getElem?_insert]
  cases assigned.positionOf? node with
  | none => simp only [Std.compare_eq_iff_eq, reduceCtorEq, if_false]
  | some previous =>
    simp only [ExtTreeMap.getElem?_erase, Std.compare_eq_iff_eq, Option.some.injEq]

section
variable (assigned later : BitPositions) (node : NodeId) (position : Nat)
  (given : assigned.assign node position = .ok later)
include given

theorem positionOf?_assign (other : NodeId) :
    later.positionOf? other = if node = other then some position else assigned.positionOf? other := by
  obtain ⟨_, _, rfl⟩ := ends_assign _ _ _ _ given
  exact assigned.positionOf?_move node position other

theorem inverse_assign (inverse : assigned.Inverse) : later.Inverse := by
  obtain ⟨bounded, free, rfl⟩ := ends_assign _ _ _ _ given
  constructor
  case nodeOf?_eq_some =>
    intro other place
    rw [nodeOf?_move, positionOf?_move]
    by_cases here : position = place
    · subst here
      by_cases own : node = other
      · simp [own]
      · -- The position had no other owner, or it would have been refused.
        have unowned : assigned.positionOf? other ≠ some position := fun held =>
          own (free other ((inverse.nodeOf?_eq_some other position).2 held)).symm
        simp [own, unowned]
    · by_cases own : node = other
      · subst own
        by_cases left : assigned.positionOf? node = some place
        · simp [here, left]
        · simp [here, left, inverse.nodeOf?_eq_some]
      · by_cases left : assigned.positionOf? node = some place
        · have unowned : assigned.positionOf? other ≠ some place := by
            intro held
            have first := (inverse.nodeOf?_eq_some node place).2 left
            have second := (inverse.nodeOf?_eq_some other place).2 held
            exact own (Option.some.inj (first.symm.trans second))
          simp [here, own, left, unowned]
        · simp [here, own, left, inverse.nodeOf?_eq_some]
  case bounded =>
    intro other place held
    rw [positionOf?_move] at held
    split at held
    · cases held
      exact bounded
    · exact inverse.bounded other place held

end

theorem inverse_of_assigned (assigned : BitPositions) (made : assigned.Assigned) :
    assigned.Inverse := by
  induction made with
  | empty => exact inverse_empty
  | assign assigned later node position _ given ih =>
    exact inverse_assign assigned later node position given ih

theorem Inverse.injective (assigned : BitPositions) (inverse : assigned.Inverse) (one other : NodeId)
    (position : Nat) (first : assigned.positionOf? one = some position)
    (second : assigned.positionOf? other = some position) : one = other := by
  have owner := (inverse.nodeOf?_eq_some one position).2 first
  exact Option.some.inj (owner.symm.trans ((inverse.nodeOf?_eq_some other position).2 second))

theorem assigned_sequential (nodes : List NodeId) (assigned : BitPositions)
    (made : sequential nodes = .ok assigned) : assigned.Assigned := by
  refine Traversal.foldlM_keeps Assigned _ ?_ _ _ assigned .empty made
  intro assigned entry later earlier given
  exact .assign assigned later entry.1 entry.2 earlier given

theorem mem_toList (assigned : BitPositions) (node : NodeId) (position : Nat) :
    (node, position) ∈ assigned.toList ↔ assigned.positionOf? node = some position :=
  ExtTreeMap.mem_toList_iff_getElem?_eq_some

theorem foldlM_address (assigned : BitPositions) (nodes : List NodeId) (first : Bitstring)
    (placed : ∀ node ∈ nodes, ∃ position, assigned.positionOf? node = some position) :
    nodes.foldlM assigned.address first =
      (nodes.filterMap assigned.positionOf?).foldlM Bitstring.set first := by
  induction nodes generalizing first with
  | nil => rfl
  | cons node rest ih =>
    obtain ⟨⟨own, held⟩, placed⟩ := List.forall_mem_cons.1 placed
    have added : assigned.address first node = first.set own := by
      unfold address
      rw [held]
    rw [List.filterMap_cons_some held, List.foldlM_cons, List.foldlM_cons, added]
    exact bind_congr fun next => ih next placed

theorem exists_bitstringFor (assigned : BitPositions) (inverse : assigned.Inverse)
    (nodes : List NodeId)
    (placed : ∀ node ∈ nodes, ∃ position, assigned.positionOf? node = some position) :
    ∃ bitstring, assigned.bitstringFor nodes = .ok bitstring ∧
      ∀ position, bitstring.test position = true ↔
        ∃ node ∈ nodes, assigned.positionOf? node = some position := by
  have bounded : ∀ position ∈ nodes.filterMap assigned.positionOf?, position < bitCount := by
    intro position listed
    obtain ⟨node, _, held⟩ := List.mem_filterMap.1 listed
    exact inverse.bounded node position held
  obtain ⟨bitstring, found, test⟩ := Bitstring.exists_ofPositions _ bounded
  refine ⟨bitstring, ?_, fun position => (test position).trans List.mem_filterMap⟩
  rw [bitstringFor_eq_foldlM, assigned.foldlM_address nodes .zero placed]
  exact found

/-! ## Sequences of calls -/

def afterCalls (calls : List (NodeId × Nat)) : BitPositions :=
  calls.foldl (fun assigned call => (assigned.assignInPlace call.1 call.2).2) empty

theorem assigned_assignInPlace (assigned : BitPositions) (made : assigned.Assigned) (node : NodeId)
    (position : Nat) : (assigned.assignInPlace node position).2.Assigned := by
  have ways := assigned.ends_assignInPlace node position
  have given (later : BitPositions) := (assigned.assign_eq_ok later node position).2
  generalize assigned.assignInPlace node position = ended at given ways ⊢
  obtain ⟨result, later⟩ := ended
  cases ways with
  | outside => exact made
  | taken => exact made
  | moved => exact .assign assigned _ node position made (given _ rfl)

theorem assigned_afterCalls (calls : List (NodeId × Nat)) : (afterCalls calls).Assigned := by
  induction calls using List.reverseRecOn with
  | nil => exact .empty
  | append_singleton calls call ih =>
    unfold afterCalls at ih ⊢
    rw [List.foldl_append]
    exact assigned_assignInPlace _ ih call.1 call.2

theorem assignInPlace_eq_ok (assigned : BitPositions) (node : NodeId) (position : Nat) :
    ((assigned.assignInPlace node position).1 = .ok () ↔ position < bitCount ∧
      ∀ owner, assigned.nodeOf? position = some owner → owner = node) ∧
    ∀ error, (assigned.assignInPlace node position).1 = .error error →
      (assigned.assignInPlace node position).2 = assigned := by
  have ways := assigned.ends_assignInPlace node position
  generalize assigned.assignInPlace node position = ended at ways ⊢
  obtain ⟨result, later⟩ := ended
  cases ways with
  | outside outside =>
    exact ⟨iff_of_false (by simp) fun fits => Nat.not_lt_of_le outside fits.1, fun _ _ => rfl⟩
  | taken owner inside held other =>
    exact ⟨iff_of_false (by simp) fun fits => other (fits.2 owner held), fun _ _ => rfl⟩
  | moved inside free => exact ⟨iff_of_true rfl ⟨inside, free⟩, by simp⟩

theorem exists_position_of_foldlM (assigned : BitPositions) (nodes : List NodeId)
    (first last : Bitstring) (found : nodes.foldlM assigned.address first = .ok last) :
    ∀ node ∈ nodes, ∃ position, assigned.positionOf? node = some position := by
  induction nodes generalizing first with
  | nil => simp
  | cons node rest ih =>
    obtain ⟨next, added, found⟩ := (Traversal.foldlM_cons_eq_ok ..).1 found
    refine List.forall_mem_cons.2 ⟨?_, ih next found⟩
    unfold address at added
    split at added
    · cases added
    · exact ⟨_, ‹_›⟩

theorem bitstringFor_eq_ok (assigned : BitPositions) (inverse : assigned.Inverse)
    (nodes : List NodeId) (bitstring : Bitstring)
    (found : assigned.bitstringFor nodes = .ok bitstring) (position : Nat) :
    bitstring.test position = true ↔ ∃ node ∈ nodes, assigned.positionOf? node = some position := by
  have placed := assigned.exists_position_of_foldlM nodes .zero bitstring found
  obtain ⟨other, found', tests⟩ := assigned.exists_bitstringFor inverse nodes placed
  cases found.symm.trans found'
  exact tests position

theorem subset_of_bitstringFor (assigned : BitPositions) (inverse : assigned.Inverse)
    (nodes others : List NodeId) (bitstring : Bitstring)
    (found : assigned.bitstringFor nodes = .ok bitstring)
    (found' : assigned.bitstringFor others = .ok bitstring) : nodes ⊆ others := by
  intro node listed
  obtain ⟨position, own⟩ := assigned.exists_position_of_foldlM nodes .zero bitstring found node listed
  have inside := (assigned.bitstringFor_eq_ok inverse nodes bitstring found position).2
    ⟨node, listed, own⟩
  obtain ⟨other, listed', own'⟩ :=
    (assigned.bitstringFor_eq_ok inverse others bitstring found' position).1 inside
  rwa [inverse.injective assigned node other position own own']

/-- Whatever calls were made and refused before: a node has a position exactly if the position has the
node, and positions fit a bitstring. The next call is refused exactly if its position does not fit or
has another node, and then it changes nothing. Nodes have a bitstring exactly if all of them have
positions, it has these positions only, and no other set of nodes has the same. -/
theorem lookups_afterCalls (calls : List (NodeId × Nat)) :
    (∀ node position, (afterCalls calls).positionOf? node = some position ↔
      (afterCalls calls).nodeOf? position = some node) ∧
    (∀ node position, (afterCalls calls).positionOf? node = some position → position < bitCount) ∧
    (∀ node position,
      (((afterCalls calls).assignInPlace node position).1 = .ok () ↔ position < bitCount ∧
        ∀ owner, (afterCalls calls).nodeOf? position = some owner → owner = node) ∧
      (((afterCalls calls).assignInPlace node position).1 = .ok () → ∀ other,
        ((afterCalls calls).assignInPlace node position).2.positionOf? other =
          if node = other then some position else (afterCalls calls).positionOf? other) ∧
      ∀ error, ((afterCalls calls).assignInPlace node position).1 = .error error →
        ((afterCalls calls).assignInPlace node position).2 = afterCalls calls) ∧
    (∀ nodes, ((∃ bitstring, (afterCalls calls).bitstringFor nodes = .ok bitstring) ↔
        ∀ node ∈ nodes, ∃ position, (afterCalls calls).positionOf? node = some position) ∧
      ∀ bitstring, (afterCalls calls).bitstringFor nodes = .ok bitstring →
        (∀ position, bitstring.test position = true ↔
          ∃ node ∈ nodes, (afterCalls calls).positionOf? node = some position) ∧
        ∀ others, (afterCalls calls).bitstringFor others = .ok bitstring →
          ∀ node, node ∈ nodes ↔ node ∈ others) := by
  have inverse := inverse_of_assigned _ (assigned_afterCalls calls)
  generalize afterCalls calls = assigned at inverse ⊢
  refine ⟨fun node position => (inverse.nodeOf?_eq_some node position).symm, inverse.bounded,
    fun node position => ?_, fun nodes => ⟨⟨?_, ?_⟩, fun bitstring found => ⟨?_, ?_⟩⟩⟩
  · obtain ⟨succeeds, refused⟩ := assigned.assignInPlace_eq_ok node position
    refine ⟨succeeds, fun given other => ?_, refused⟩
    have ways := assigned.ends_assignInPlace node position
    rw [given] at ways
    generalize (assigned.assignInPlace node position).2 = later at ways ⊢
    cases ways with
    | moved => exact assigned.positionOf?_move node position other
  · rintro ⟨bitstring, found⟩
    exact assigned.exists_position_of_foldlM nodes .zero bitstring found
  · intro placed
    obtain ⟨bitstring, found, _⟩ := assigned.exists_bitstringFor inverse nodes placed
    exact ⟨bitstring, found⟩
  · exact assigned.bitstringFor_eq_ok inverse nodes bitstring found
  · intro others found' node
    exact ⟨fun listed => assigned.subset_of_bitstringFor inverse _ _ _ found found' listed,
      fun listed => assigned.subset_of_bitstringFor inverse _ _ _ found' found listed⟩

def exchange : List (NodeId × Nat) := [(7, 3), (8, 3), (7, 5), (8, 3), (9, 200), (7, 5)]

theorem lookups_afterCalls_exchange :
    (afterCalls exchange).nodeOf? 5 = some 7 ∧ (afterCalls exchange).nodeOf? 3 = some 8 ∧
      ((afterCalls exchange).assignInPlace 9 3).2 = afterCalls exchange ∧
      ∃ bitstring, (afterCalls exchange).bitstringFor [8, 7, 8] = .ok bitstring ∧
        bitstring.test 3 = true ∧
        ∀ others, (afterCalls exchange).bitstringFor others = .ok bitstring →
          ∀ node, node ∈ [8, 7, 8] ↔ node ∈ others := by
  have seven : (afterCalls exchange).positionOf? 7 = some 5 := by decide +kernel
  have eight : (afterCalls exchange).positionOf? 8 = some 3 := by decide +kernel
  obtain ⟨inverse, _, calls, bitstrings⟩ := lookups_afterCalls exchange
  obtain ⟨_, _, refused⟩ := calls 9 3
  have fails : ((afterCalls exchange).assignInPlace 9 3).1 =
      .error (.duplicateBitPosition 3 8 9) := by decide +kernel
  obtain ⟨complete, tests⟩ := bitstrings [8, 7, 8]
  obtain ⟨bitstring, found⟩ := complete.2 (by simp [seven, eight])
  obtain ⟨test, same⟩ := tests bitstring found
  exact ⟨(inverse 7 5).1 seven, (inverse 8 3).1 eight, refused _ fails, bitstring, found,
    (test 3).2 ⟨8, List.mem_cons_self, eight⟩, same⟩

end BitPositions
end Multicast
