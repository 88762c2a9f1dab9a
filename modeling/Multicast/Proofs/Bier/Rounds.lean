import Multicast.Proofs.Bier.Replicate

/-!
Rounds of replication. A round takes the lowest position left and sends all positions under the mask of
its entry. Main statement: whatever a table holds, the rounds end after at most as many as there are
positions; their copies have each position once and come in the order of their lowest positions, and if
they end early, the lowest position left has no entry or one that does not cover it.
-/

namespace Multicast

namespace Bitstring

theorem ext_test (one other : Bitstring) (same : ∀ position, one.test position = other.test position) :
    one = other := by
  cases one
  cases other
  exact congrArg Bitstring.mk (BitVec.eq_of_getLsbD_eq fun position _ => same position)

theorem lt_of_test (bitstring : Bitstring) (position : Nat)
    (inside : bitstring.test position = true) : position < bitCount :=
  BitVec.lt_of_getLsbD inside

theorem lowest?_eq_some (bitstring : Bitstring) (position : Nat) :
    bitstring.lowest? = some position ↔
      bitstring.test position = true ∧ ∀ lower < position, bitstring.test lower = false := by
  unfold lowest?
  rw [List.find?_range_eq_some]
  simp only [List.mem_range, Bool.not_eq_true']
  exact and_congr_right fun inside =>
    and_iff_right (bitstring.lt_of_test position inside)

theorem lowest?_eq_none (bitstring : Bitstring) : bitstring.lowest? = none ↔ bitstring = zero := by
  unfold lowest?
  rw [List.find?_range_eq_none]
  constructor
  · intro absent
    refine ext_test _ _ fun position => ?_
    rw [test_zero]
    by_contra inside
    have member : bitstring.test position = true := by simpa using inside
    simpa [member] using absent position (bitstring.lt_of_test position member)
  · rintro rfl position _
    simp [test_zero]

theorem test_unmasked (bitstring mask : Bitstring) (position : Nat) :
    (bitstring ^^^ (bitstring &&& mask)).test position = true ↔
      bitstring.test position = true ∧ mask.test position = false := by
  rw [test_xor, test_and]
  cases bitstring.test position <;> simp

theorem count_lt (bitstring left : Bitstring) (position : Nat)
    (within : ∀ place, left.test place = true → bitstring.test place = true)
    (inside : bitstring.test position = true) (gone : left.test position = false) :
    left.count < bitstring.count := by
  obtain ⟨before, after, parts⟩ :=
    List.append_of_mem (List.mem_range.2 (bitstring.lt_of_test position inside))
  unfold count
  rw [parts, List.countP_append, List.countP_append, List.countP_cons_of_pos inside,
    List.countP_cons_of_neg (by simp [gone])]
  have first := List.countP_mono_left fun place (_ : place ∈ before) => within place
  have second := List.countP_mono_left fun place (_ : place ∈ after) => within place
  omega

end Bitstring

namespace BierTable

/-- Rounds of replication, the copies they make and the positions they leave. -/
inductive Rounds (table : BierTable) : Bitstring → List Replica → Bitstring → Prop where
  | done (remaining : Bitstring) : Rounds table remaining [] remaining
  | round (remaining left : Bitstring) (position : Nat) (entry : BierEntry) (rest : List Replica)
    (lowest : remaining.lowest? = some position)
    (found : table.entries[position]? = some entry) (covered : entry.mask.test position = true)
    (later : Rounds table (remaining ^^^ (remaining &&& entry.mask)) rest left) :
    Rounds table remaining
      (⟨entry.nextHop, entry.outInterface, remaining &&& entry.mask⟩ :: rest) left

/-- Why a position cannot be sent: it has no entry, or one whose mask lacks it. -/
def Blocks (table : BierTable) (position : Nat) (error : BierError) : Prop :=
  (error = .unknownBitPosition table.node position ∧ table.entries[position]? = none) ∨
  (error = .inconsistentMask table.node position ∧
    ∃ entry, table.entries[position]? = some entry ∧ entry.mask.test position = false)

def others (table : BierTable) (bitstring : Bitstring) : Bitstring :=
  match table.localPosition with
  | none => bitstring
  | some position => bitstring.without (.single position)

section
variable (table : BierTable)

theorem replicate_append (before later : List Nat) (remaining : Bitstring)
    (clear : ∀ position ∈ before, remaining.test position = false) :
    table.replicate (before ++ later) remaining = table.replicate later remaining := by
  induction before with
  | nil => rfl
  | cons position before ih =>
    obtain ⟨absent, clear⟩ := List.forall_mem_cons.1 clear
    rw [List.cons_append, replicate, absent, if_neg (by decide)]
    exact ih clear

theorem forward_zero : table.forward .zero = .ok [] := by
  unfold forward
  rw [← List.append_nil (List.range bitCount),
    replicate_append _ _ _ _ fun position _ => Bitstring.test_zero position]
  rfl

theorem forward_of_lowest (bitstring : Bitstring) (position : Nat)
    (lowest : bitstring.lowest? = some position) :
    table.forward bitstring =
      match table.entries[position]? with
      | none => .error (.unknownBitPosition table.node position)
      | some entry =>
        if entry.mask.test position then
          (table.forward (bitstring ^^^ (bitstring &&& entry.mask))).map
            (⟨entry.nextHop, entry.outInterface, bitstring &&& entry.mask⟩ :: ·)
        else .error (.inconsistentMask table.node position) := by
  obtain ⟨inside, least⟩ := (bitstring.lowest?_eq_some position).1 lowest
  obtain ⟨after, parts⟩ : ∃ after, List.range bitCount = List.range position ++ position :: after := by
    obtain ⟨count, total⟩ := Nat.exists_eq_add_of_lt (bitstring.lt_of_test position inside)
    rw [total, Nat.add_assoc, List.range_add, List.range_succ_eq_map, List.map_cons]
    exact ⟨_, rfl⟩
  have begun : table.forward bitstring = table.replicate (position :: after) bitstring := by
    unfold forward
    rw [parts]
    exact table.replicate_append _ _ _ fun lower listed => least lower (List.mem_range.1 listed)
  rw [begun, replicate, if_pos inside, lookup]
  cases found : table.entries[position]? with
  | none => rfl
  | some entry =>
    dsimp only
    rw [Bitstring.test_and, inside, Bool.true_and]
    by_cases covered : entry.mask.test position = true
    · -- No position up to this one is left for the later rounds.
      have cleared : ∀ lower ∈ List.range position ++ [position],
          (bitstring ^^^ (bitstring &&& entry.mask)).test lower = false := by
        intro lower listed
        rw [← Bool.not_eq_true, Bitstring.test_unmasked]
        rintro ⟨held, unmasked⟩
        rcases List.mem_append.1 listed with below | here
        · rw [least lower (List.mem_range.1 below)] at held
          cases held
        · rw [List.mem_singleton.1 here, covered] at unmasked
          cases unmasked
      have left : table.forward (bitstring ^^^ (bitstring &&& entry.mask)) =
          table.replicate after (bitstring ^^^ (bitstring &&& entry.mask)) := by
        unfold forward
        rw [parts, List.append_cons, replicate_append _ _ _ _ cleared]
      rw [if_pos covered, if_pos covered, left]
      cases table.replicate after (bitstring ^^^ (bitstring &&& entry.mask)) with
      | error error => rfl
      | ok replicas => rfl
    · rw [if_neg covered, if_neg covered]

theorem forward_of_blocks (bitstring : Bitstring) (position : Nat) (error : BierError)
    (lowest : bitstring.lowest? = some position) (blocks : table.Blocks position error) :
    table.forward bitstring = .error error := by
  rw [table.forward_of_lowest bitstring position lowest]
  rcases blocks with ⟨rfl, absent⟩ | ⟨rfl, entry, found, uncovered⟩
  · rw [absent]
  · rw [found]
    dsimp only
    rw [uncovered, if_neg (by decide)]

variable (bitstring left : Bitstring) (replicas : List Replica)

theorem forward_of_rounds (rounds : table.Rounds bitstring replicas left) :
    table.forward bitstring = (table.forward left).map (replicas ++ ·) := by
  induction rounds with
  | done remaining => cases table.forward remaining <;> rfl
  | round remaining left position entry rest lowest found covered later ih =>
    rw [table.forward_of_lowest remaining position lowest, found]
    dsimp only
    rw [if_pos covered, ih]
    cases table.forward left <;> rfl

theorem within_of_rounds (rounds : table.Rounds bitstring replicas left) (replica : Replica)
    (member : replica ∈ replicas) (position : Nat) (inside : replica.bitstring.test position = true) :
    bitstring.test position = true := by
  induction rounds with
  | done remaining => cases member
  | round remaining left lowest entry rest _ _ _ later ih =>
    rcases List.mem_cons.1 member with rfl | other
    · rw [Bitstring.test_and, Bool.and_eq_true] at inside
      exact inside.1
    · exact ((Bitstring.test_unmasked ..).1 (ih other)).1

theorem test_of_rounds (rounds : table.Rounds bitstring replicas left) (position : Nat) :
    left.test position = true ↔ bitstring.test position = true ∧
      ∀ replica ∈ replicas, replica.bitstring.test position = false := by
  induction rounds with
  | done remaining => simp
  | round remaining left lowest entry rest _ _ _ later ih =>
    rw [ih, Bitstring.test_unmasked, List.forall_mem_cons, and_assoc]
    refine and_congr_right fun inside => and_congr_left fun _ => ?_
    rw [Bitstring.test_and, inside, Bool.true_and]

theorem length_le_of_rounds (rounds : table.Rounds bitstring replicas left) :
    replicas.length + left.count ≤ bitstring.count := by
  induction rounds with
  | done remaining => simp
  | round remaining left position entry rest lowest found covered later ih =>
    have fewer := remaining.count_lt (remaining ^^^ (remaining &&& entry.mask)) position
      (fun place held => ((Bitstring.test_unmasked ..).1 held).1)
      ((remaining.lowest?_eq_some position).1 lowest).1
      (by rw [← Bool.not_eq_true, Bitstring.test_unmasked, covered]; simp)
    rw [List.length_cons]
    omega

/-- Forwarding goes on until no position is left, or the lowest one cannot be sent. -/
theorem exists_rounds : ∃ replicas left, table.Rounds bitstring replicas left ∧
    (left = .zero ∨ ∃ position error, left.lowest? = some position ∧ table.Blocks position error) := by
  induction counted : bitstring.count using Nat.strongRecOn generalizing bitstring with
  | _ size ih =>
    cases lowest : bitstring.lowest? with
    | none => exact ⟨[], bitstring, .done bitstring, .inl (bitstring.lowest?_eq_none.1 lowest)⟩
    | some position =>
      cases found : table.entries[position]? with
      | none =>
        exact ⟨[], bitstring, .done bitstring, .inr ⟨position, _, lowest, .inl ⟨rfl, found⟩⟩⟩
      | some entry =>
        cases covered : entry.mask.test position with
        | false =>
          exact ⟨[], bitstring, .done bitstring,
            .inr ⟨position, _, lowest, .inr ⟨rfl, entry, found, covered⟩⟩⟩
        | true =>
          have once := length_le_of_rounds table bitstring _ _
            (.round bitstring _ position entry [] lowest found covered (.done _))
          rw [List.length_singleton] at once
          obtain ⟨replicas, left, rounds, ends⟩ :=
            ih (bitstring ^^^ (bitstring &&& entry.mask)).count (by omega) _ rfl
          exact ⟨_, left, .round bitstring left position entry replicas lowest found covered rounds,
            ends⟩

theorem forward_eq_ok_iff :
    table.forward bitstring = .ok replicas ↔ table.Rounds bitstring replicas .zero := by
  constructor
  · intro sent
    obtain ⟨copies, left, rounds, rfl | ⟨position, error, lowest, blocks⟩⟩ :=
      exists_rounds table bitstring
    · rw [forward_of_rounds table bitstring _ _ rounds, forward_zero] at sent
      cases sent
      change table.Rounds bitstring (copies ++ []) .zero
      rwa [List.append_nil]
    · rw [forward_of_rounds table bitstring _ _ rounds,
        table.forward_of_blocks left position error lowest blocks] at sent
      cases sent
  · intro rounds
    rw [forward_of_rounds table bitstring _ _ rounds, forward_zero]
    exact congrArg Except.ok (List.append_nil replicas)

theorem forward_eq_error_iff (error : BierError) :
    table.forward bitstring = .error error ↔ ∃ replicas left position,
      table.Rounds bitstring replicas left ∧ left.lowest? = some position ∧
        table.Blocks position error := by
  constructor
  · intro failed
    obtain ⟨copies, left, rounds, rfl | ⟨position, other, lowest, blocks⟩⟩ :=
      exists_rounds table bitstring
    · rw [forward_of_rounds table bitstring _ _ rounds, forward_zero] at failed
      cases failed
    · rw [forward_of_rounds table bitstring _ _ rounds,
        table.forward_of_blocks left position other lowest blocks] at failed
      cases failed
      exact ⟨copies, left, position, rounds, lowest, blocks⟩
  · rintro ⟨copies, left, position, rounds, lowest, blocks⟩
    rw [forward_of_rounds table bitstring _ _ rounds,
      table.forward_of_blocks left position error lowest blocks]
    rfl

/-- Copies that have each position of a bitstring once, in the order of their lowest positions, and that
go where the entries of these positions tell. -/
structure Partitions (table : BierTable) (replicas : List Replica) (bitstring : Bitstring) : Prop
    extends Replica.Share replicas bitstring where
  covers : ∀ position, bitstring.test position = true →
    ∃ replica ∈ replicas, replica.bitstring.test position = true
  ascending : replicas.Pairwise fun one other => ∀ first second,
    one.bitstring.lowest? = some first → other.bitstring.lowest? = some second → first < second
  entry : ∀ replica ∈ replicas, ∃ position entry, replica.bitstring.lowest? = some position ∧
    table.entries[position]? = some entry ∧ replica.nextHop = entry.nextHop ∧
    replica.outInterface = entry.outInterface

/-- The lowest position left is the lowest one of its copy. -/
theorem lowest?_of_round (remaining : Bitstring) (position : Nat) (entry : BierEntry)
    (lowest : remaining.lowest? = some position) (covered : entry.mask.test position = true) :
    (remaining &&& entry.mask).lowest? = some position := by
  rw [Bitstring.lowest?_eq_some] at lowest ⊢
  refine ⟨?_, fun lower before => ?_⟩
  · rw [Bitstring.test_and, lowest.1, covered, Bool.and_self]
  · rw [Bitstring.test_and, lowest.2 lower before, Bool.false_and]

theorem ascending_of_rounds (rounds : table.Rounds bitstring replicas left) :
    replicas.Pairwise fun one other => ∀ first second,
      one.bitstring.lowest? = some first → other.bitstring.lowest? = some second →
        first < second := by
  induction rounds with
  | done remaining => exact .nil
  | round remaining left position entry rest lowest found covered later ih =>
    refine List.pairwise_cons.2 ⟨fun other member first second start start' => ?_, ih⟩
    rw [lowest?_of_round remaining position entry lowest covered] at start
    cases start
    have inside := ((Bitstring.lowest?_eq_some ..).1 start').1
    obtain ⟨held, unmasked⟩ := (Bitstring.test_unmasked ..).1
      (within_of_rounds table _ _ _ later other member second inside)
    have least := ((Bitstring.lowest?_eq_some ..).1 lowest).2
    by_contra early
    rcases Nat.lt_or_eq_of_le (Nat.le_of_not_lt early) with before | rfl
    · rw [least second before] at held
      cases held
    · rw [covered] at unmasked
      cases unmasked

theorem entry_of_rounds (rounds : table.Rounds bitstring replicas left) (replica : Replica)
    (member : replica ∈ replicas) :
    ∃ position entry, replica.bitstring.lowest? = some position ∧
      table.entries[position]? = some entry ∧ replica.nextHop = entry.nextHop ∧
      replica.outInterface = entry.outInterface := by
  induction rounds with
  | done remaining => cases member
  | round remaining left position entry rest lowest found covered later ih =>
    rcases List.mem_cons.1 member with rfl | other
    · exact ⟨position, entry, lowest?_of_round remaining position entry lowest covered, found, rfl, rfl⟩
    · exact ih other

theorem partitions_of_forward (sent : table.forward bitstring = .ok replicas) :
    table.Partitions replicas bitstring where
  toShare := table.share_of_forward bitstring replicas sent
  covers position inside := by
    have rounds := (forward_eq_ok_iff ..).1 sent
    by_contra! none
    have left := (test_of_rounds table bitstring _ replicas rounds position).2
      ⟨inside, fun replica member => by simpa using none replica member⟩
    rw [Bitstring.test_zero] at left
    cases left
  ascending := ascending_of_rounds table bitstring _ replicas ((forward_eq_ok_iff ..).1 sent)
  entry := entry_of_rounds table bitstring _ replicas ((forward_eq_ok_iff ..).1 sent)

theorem test_others (position : Nat) : (table.others bitstring).test position = true ↔
    bitstring.test position = true ∧ table.localPosition ≠ some position := by
  unfold others
  cases table.localPosition with
  | none => simp
  | some own =>
    rw [Bitstring.test_without, Bitstring.test_single, Bool.and_eq_true]
    refine and_congr_right fun inside => ?_
    by_cases same : own = position
    · simp [same, bitstring.lt_of_test position inside]
    · simp [same]

theorem process_eq :
    table.process bitstring = (table.forward (table.others bitstring)).map fun replicas =>
      ⟨table.localPosition.any bitstring.test, replicas⟩ := by
  unfold process others
  cases table.localPosition with
  | none => cases table.forward bitstring <;> rfl
  | some position =>
    dsimp only
    by_cases own : bitstring.test position = true
    · have cleared : bitstring.clear position = .ok (bitstring.without (.single position)) :=
        if_pos (bitstring.lt_of_test position own)
      rw [if_pos own, cleared, Option.any_some, own]
      cases found : table.forward (bitstring.without (.single position)) with
      | error error => simp [bind, Except.bind, found, Except.map]
      | ok replicas => simp [bind, Except.bind, found, Except.map, pure, Except.pure]
    · have absent : bitstring.test position = false := by simpa using own
      have same : bitstring.without (.single position) = bitstring := by
        refine Bitstring.ext_test _ _ fun place => ?_
        rw [Bitstring.test_without, Bitstring.test_single]
        by_cases here : position = place
        · subst here
          simp [absent]
        · simp [here]
      rw [if_neg own, same, Option.any_some, absent]
      cases table.forward bitstring <;> rfl

end

/-- Whatever a table holds, rounds of replication end after at most as many as there are positions.
Forwarding does them until no position is left, and then its copies partition the bitstring, or until the
lowest position that is left cannot be sent. A node forwards the positions other than its own. -/
theorem forward_in_rounds (table : BierTable) (bitstring : Bitstring) :
    (∀ replicas left, table.Rounds bitstring replicas left →
      replicas.length + left.count ≤ bitstring.count ∧
      ∀ position, left.test position = true ↔ bitstring.test position = true ∧
        ∀ replica ∈ replicas, replica.bitstring.test position = false) ∧
    (∀ replicas, table.forward bitstring = .ok replicas ↔ table.Rounds bitstring replicas .zero) ∧
    (∀ replicas, table.forward bitstring = .ok replicas → table.Partitions replicas bitstring) ∧
    (∀ error, table.forward bitstring = .error error ↔ ∃ replicas left position,
      table.Rounds bitstring replicas left ∧ left.lowest? = some position ∧
        table.Blocks position error) ∧
    table.process bitstring = (table.forward (table.others bitstring)).map (fun replicas =>
      ⟨table.localPosition.any bitstring.test, replicas⟩) ∧
    ∀ position, (table.others bitstring).test position = true ↔
      bitstring.test position = true ∧ table.localPosition ≠ some position := by
  refine ⟨fun replicas left rounds => ⟨?_, ?_⟩, ?_, ?_, ?_, ?_, ?_⟩
  · exact length_le_of_rounds table bitstring left replicas rounds
  · exact test_of_rounds table bitstring left replicas rounds
  · exact forward_eq_ok_iff table bitstring
  · exact partitions_of_forward table bitstring
  · exact forward_eq_error_iff table bitstring
  · exact process_eq table bitstring
  · exact test_others table bitstring

def overlapping : BierTable :=
  [⟨1, ⟨0b110⟩, 7, none, 1⟩, ⟨3, ⟨0b1100⟩, 8, none, 2⟩, ⟨5, ⟨0b10000⟩, 9, none, 3⟩].foldl install
    (empty 0 (some 4))

theorem forward_in_rounds_overlapping :
    overlapping.Partitions [⟨7, 1, ⟨0b110⟩⟩, ⟨8, 2, ⟨0b1000⟩⟩] ⟨0b1110⟩ ∧
      overlapping.process ⟨0b11110⟩ = .ok ⟨true, [⟨7, 1, ⟨0b110⟩⟩, ⟨8, 2, ⟨0b1000⟩⟩]⟩ ∧
      ∃ replicas left position, overlapping.Rounds ⟨0b101110⟩ replicas left ∧
        left.lowest? = some position ∧ overlapping.Blocks position (.inconsistentMask 0 5) := by
  have sent : overlapping.forward ⟨0b1110⟩ = .ok [⟨7, 1, ⟨0b110⟩⟩, ⟨8, 2, ⟨0b1000⟩⟩] := by
    decide +kernel
  have failed : overlapping.forward ⟨0b101110⟩ = .error (.inconsistentMask 0 5) := by decide +kernel
  obtain ⟨_, _, parts, _⟩ := forward_in_rounds overlapping ⟨0b1110⟩
  obtain ⟨_, _, _, errors, _⟩ := forward_in_rounds overlapping ⟨0b101110⟩
  exact ⟨parts _ sent, by decide +kernel, (errors _).1 failed⟩

end BierTable
end Multicast
