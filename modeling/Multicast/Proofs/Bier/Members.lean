import Multicast.Proofs.Bier.Positions
import Multicast.Proofs.Bier.Words
import Mathlib.Data.Finset.SymmDiff

/-!
Bitstrings as sets of positions. Main statement: however a bitstring is built, the same way of building
gives the set of its positions and the list of its words, and all that the bitstring tells of itself is told
of this set and by these words.
-/

namespace Multicast

/-! ## Building -/

/-- Sets of positions of some kind, and what is done with them. Positions can be refused. -/
structure PositionSets (α : Type) where
  ofWords : UInt32 → UInt32 → UInt32 → UInt32 → α
  ofPositions : List Nat → Except BierError α
  set : α → Nat → Except BierError α
  clear : α → Nat → Except BierError α
  and : α → α → α
  or : α → α → α
  xor : α → α → α

/-- A way to build a set of positions. -/
inductive Building where
  | ofWords (first second third fourth : UInt32)
  | ofPositions (positions : List Nat)
  | set (earlier : Building) (position : Nat)
  | clear (earlier : Building) (position : Nat)
  | and (one other : Building)
  | or (one other : Building)
  | xor (one other : Building)

namespace Building

section
variable {α β : Type}

/-- What is there after a change. Where the change is refused, nothing changes. -/
def settle (before : α) : Except BierError α → α
  | .ok after => after
  | .error _ => before

def altered (change : α → Except BierError α) (built : Except BierError α) : Except BierError α :=
  built.map fun members => settle members (change members)

def joined (join : α → α → α) (one other : Except BierError α) : Except BierError α :=
  return join (← one) (← other)

def build (sets : PositionSets α) : Building → Except BierError α
  | .ofWords first second third fourth => .ok (sets.ofWords first second third fourth)
  | .ofPositions positions => sets.ofPositions positions
  | .set earlier position => altered (sets.set · position) (earlier.build sets)
  | .clear earlier position => altered (sets.clear · position) (earlier.build sets)
  | .and one other => joined sets.and (one.build sets) (other.build sets)
  | .or one other => joined sets.or (one.build sets) (other.build sets)
  | .xor one other => joined sets.xor (one.build sets) (other.build sets)

theorem map_altered (view : α → β) (change : α → Except BierError α)
    (change' : β → Except BierError β)
    (same : ∀ members, (change members).map view = change' (view members))
    (built : Except BierError α) :
    (altered change built).map view = altered change' (built.map view) := by
  cases built with
  | error error => rfl
  | ok members =>
    refine congrArg Except.ok ?_
    change view (settle members (change members)) = settle (view members) (change' (view members))
    rw [← same]
    cases change members <;> rfl

theorem map_joined (view : α → β) (join : α → α → α) (join' : β → β → β)
    (same : ∀ one other, view (join one other) = join' (view one) (view other))
    (one other : Except BierError α) :
    (joined join one other).map view = joined join' (one.map view) (other.map view) := by
  cases one with
  | error error => rfl
  | ok one =>
    cases other with
    | error error => rfl
    | ok other => exact congrArg Except.ok (same one other)

theorem exists_altered (change : α → Except BierError α) (built : Except BierError α) :
    (∃ members, altered change built = .ok members) ↔ ∃ members, built = .ok members := by
  cases built <;> simp [altered, Except.map]

theorem exists_joined (join : α → α → α) (one other : Except BierError α) :
    (∃ members, joined join one other = .ok members) ↔
      (∃ members, one = .ok members) ∧ ∃ members, other = .ok members := by
  cases one <;> cases other <;> simp [joined, bind, Except.bind, pure, Except.pure]

end

def listed : Building → List Nat
  | .ofWords .. => []
  | .ofPositions positions => positions
  | .set earlier _ => earlier.listed
  | .clear earlier _ => earlier.listed
  | .and one other => one.listed ++ other.listed
  | .or one other => one.listed ++ other.listed
  | .xor one other => one.listed ++ other.listed

end Building

namespace PositionSets

/-- All that is done with sets of one kind can be seen in sets of another kind. -/
structure Seen {α β : Type} (sets : PositionSets α) (others : PositionSets β) (view : α → β) :
    Prop where
  ofWords (first second third fourth : UInt32) :
    view (sets.ofWords first second third fourth) = others.ofWords first second third fourth
  ofPositions (positions : List Nat) :
    (sets.ofPositions positions).map view = others.ofPositions positions
  set (members : α) (position : Nat) :
    (sets.set members position).map view = others.set (view members) position
  clear (members : α) (position : Nat) :
    (sets.clear members position).map view = others.clear (view members) position
  and (one other : α) : view (sets.and one other) = others.and (view one) (view other)
  or (one other : α) : view (sets.or one other) = others.or (view one) (view other)
  xor (one other : α) : view (sets.xor one other) = others.xor (view one) (view other)

/-- What is built of sets of one kind is seen as what is built of the other kind. -/
theorem Seen.map_build {α β : Type} {sets : PositionSets α} {others : PositionSets β} {view : α → β}
    (seen : Seen sets others view) (building : Building) :
    (building.build sets).map view = building.build others := by
  induction building with
  | ofWords first second third fourth => exact congrArg Except.ok (seen.ofWords ..)
  | ofPositions positions => exact seen.ofPositions positions
  | set earlier position ih =>
    exact (Building.map_altered view _ _ (seen.set · position) _).trans (congrArg _ ih)
  | clear earlier position ih =>
    exact (Building.map_altered view _ _ (seen.clear · position) _).trans (congrArg _ ih)
  | and one other ih ih' =>
    exact (Building.map_joined view _ _ seen.and _ _).trans (congrArg₂ _ ih ih')
  | or one other ih ih' =>
    exact (Building.map_joined view _ _ seen.or _ _).trans (congrArg₂ _ ih ih')
  | xor one other ih ih' =>
    exact (Building.map_joined view _ _ seen.xor _ _).trans (congrArg₂ _ ih ih')

def bitstrings : PositionSets Bitstring where
  ofWords := .ofWords
  ofPositions := Bitstring.ofPositions
  set := Bitstring.set
  clear := Bitstring.clear
  and one other := one &&& other
  or one other := one ||| other
  xor one other := one ^^^ other

def wordLists : PositionSets (List UInt32) where
  ofWords first second third fourth := [first, second, third, fourth]
  ofPositions := Words.ofPositions
  set := Words.set
  clear := Words.clear
  and := List.zipWith (· &&& ·)
  or := List.zipWith (· ||| ·)
  xor := List.zipWith (· ^^^ ·)

/-- Position `p` stands in word `p / 32` at bit `p % 32`. A list names the set of its positions unless one
of them does not fit, and then the first such. -/
def finsets : PositionSets (Finset Nat) where
  ofWords first second third fourth := (Finset.range bitCount).filter fun position =>
    [first, second, third, fourth][position / 32]?.any fun word => word.toNat.testBit (position % 32)
  ofPositions positions :=
    match positions.find? (bitCount ≤ ·) with
    | some outside => .error (.bitOutOfRange outside)
    | none => .ok positions.toFinset
  set members position :=
    if position < bitCount then .ok (insert position members) else .error (.bitOutOfRange position)
  clear members position :=
    if position < bitCount then .ok (members.erase position) else .error (.bitOutOfRange position)
  and one other := one ∩ other
  or one other := one ∪ other
  xor one other := symmDiff one other

end PositionSets

/-! ## Sets of positions -/

namespace Bitstring

def members (bitstring : Bitstring) : Finset Nat :=
  (Finset.range bitCount).filter fun position => bitstring.test position

theorem mem_members (bitstring : Bitstring) (position : Nat) :
    position ∈ bitstring.members ↔ bitstring.test position = true := by
  rw [members, Finset.mem_filter, Finset.mem_range]
  exact and_iff_right_of_imp (bitstring.lt_of_test position)

theorem members_eq (bitstring : Bitstring) (set : Finset Nat)
    (same : ∀ position, bitstring.test position = true ↔ position ∈ set) : bitstring.members = set :=
  Finset.ext fun position => (bitstring.mem_members position).trans (same position)

section
variable (first second third fourth : UInt32)

theorem words_ofWords :
    (ofWords first second third fourth).words = [first, second, third, fourth] := by
  simp [words_eq_map, List.range_succ, wordFrom_zero_ofWords, wordFrom_32_ofWords,
    wordFrom_64_ofWords, wordFrom_96_ofWords]

theorem members_ofWords : (ofWords first second third fourth).members =
    PositionSets.finsets.ofWords first second third fourth := by
  unfold members PositionSets.finsets
  refine Finset.filter_congr fun position _ => ?_
  rw [test_eq_words, words_ofWords, Words.test_eq]
  rfl

end

section
variable (one other bitstring : Bitstring) (position : Nat)

theorem members_and : (one &&& other).members = one.members ∩ other.members := by
  refine members_eq _ _ fun position => ?_
  rw [test_and, Bool.and_eq_true, Finset.mem_inter, mem_members, mem_members]

theorem members_or : (one ||| other).members = one.members ∪ other.members := by
  refine members_eq _ _ fun position => ?_
  rw [test_or, Bool.or_eq_true, Finset.mem_union, mem_members, mem_members]

theorem members_xor : (one ^^^ other).members = symmDiff one.members other.members := by
  refine members_eq _ _ fun position => ?_
  rw [test_xor, Finset.mem_symmDiff, mem_members, mem_members]
  cases one.test position <;> simp

theorem members_or_single (fits : position < bitCount) :
    (bitstring ||| single position).members = insert position bitstring.members := by
  refine members_eq _ _ fun other => ?_
  rw [test_or, test_single, decide_eq_true fits, Bool.true_and, Bool.or_eq_true, decide_eq_true_eq,
    Finset.mem_insert, mem_members, or_comm, eq_comm]

theorem members_without_single (fits : position < bitCount) :
    (bitstring.without (single position)).members = bitstring.members.erase position := by
  refine members_eq _ _ fun other => ?_
  rw [test_without, test_single, decide_eq_true fits, Bool.true_and, Bool.and_eq_true,
    Bool.not_eq_true', decide_eq_false_iff_not, Finset.mem_erase, mem_members, and_comm, ne_comm]

theorem map_members_set :
    (bitstring.set position).map members = PositionSets.finsets.set bitstring.members position := by
  unfold set PositionSets.finsets
  by_cases fits : position < bitCount
  · simp only [if_pos fits]
    exact congrArg Except.ok (bitstring.members_or_single position fits)
  · simp only [if_neg fits]
    rfl

theorem map_members_clear : (bitstring.clear position).map members =
    PositionSets.finsets.clear bitstring.members position := by
  unfold clear PositionSets.finsets
  by_cases fits : position < bitCount
  · simp only [if_pos fits]
    exact congrArg Except.ok (bitstring.members_without_single position fits)
  · simp only [if_neg fits]
    rfl

end

theorem foldlM_set_eq (positions : List Nat) (first : Bitstring) :
    (positions.foldlM set first).map members =
      match positions.find? (bitCount ≤ ·) with
      | some outside => .error (.bitOutOfRange outside)
      | none => .ok (first.members ∪ positions.toFinset) := by
  induction positions generalizing first with
  | nil => exact congrArg Except.ok (Finset.union_empty _).symm
  | cons position rest ih =>
    by_cases fits : position < bitCount
    · have added : first.set position = .ok (first ||| single position) := if_pos fits
      rw [List.foldlM_cons, added, List.find?_cons_of_neg (by simpa using fits)]
      refine (ih (first ||| single position)).trans ?_
      rw [first.members_or_single position fits, List.toFinset_cons, Finset.insert_union,
        Finset.union_insert]
    · have refused : first.set position = .error (.bitOutOfRange position) := if_neg fits
      rw [List.foldlM_cons, refused, List.find?_cons_of_pos (by simpa using fits)]
      rfl

end Bitstring

namespace PositionSets
open Bitstring

theorem seen_members : Seen bitstrings finsets members where
  ofWords := members_ofWords
  ofPositions positions := by
    have empty : zero.members = ∅ := members_eq _ _ fun position => by simp [test_zero]
    have folded := foldlM_set_eq positions zero
    simp only [empty, Finset.empty_union] at folded
    exact folded
  set := map_members_set
  clear := map_members_clear
  and := members_and
  or := members_or
  xor := members_xor

theorem seen_words : Seen bitstrings wordLists words where
  ofWords := words_ofWords
  ofPositions := map_words_foldlM zero
  set := map_words_set
  clear := map_words_clear
  and := words_and
  or := words_or
  xor := words_xor

end PositionSets

namespace Building
open PositionSets

theorem exists_build_iff (building : Building) :
    (∃ members, building.build finsets = .ok members) ↔
      ∀ position ∈ building.listed, position < bitCount := by
  induction building with
  | ofWords => exact iff_of_true ⟨_, rfl⟩ (by simp [listed])
  | ofPositions positions =>
    change (∃ members, finsets.ofPositions positions = .ok members) ↔
      ∀ position ∈ positions, position < bitCount
    unfold finsets
    dsimp only
    cases found : positions.find? (bitCount ≤ ·) with
    | none =>
      have fits := List.find?_eq_none.1 found
      exact iff_of_true ⟨_, rfl⟩ fun position listed => by simpa using fits position listed
    | some outside =>
      have beyond : bitCount ≤ outside := by simpa using List.find?_some found
      refine iff_of_false (by simp) fun fits => ?_
      exact Nat.not_lt_of_le beyond (fits outside (List.mem_of_find?_eq_some found))
  | set earlier position ih => exact (exists_altered ..).trans ih
  | clear earlier position ih => exact (exists_altered ..).trans ih
  | and one other ih ih' =>
    exact (exists_joined ..).trans ((and_congr ih ih').trans List.forall_mem_append.symm)
  | or one other ih ih' =>
    exact (exists_joined ..).trans ((and_congr ih ih').trans List.forall_mem_append.symm)
  | xor one other ih ih' =>
    exact (exists_joined ..).trans ((and_congr ih ih').trans List.forall_mem_append.symm)

end Building

/-! ## What a bitstring tells of itself -/

namespace Bitstring

section
variable (bitstring : Bitstring) (position : Nat)

theorem mem_positions : position ∈ bitstring.positions ↔ bitstring.test position = true := by
  rw [positions, List.mem_filter, List.mem_range]
  exact and_iff_right_of_imp (bitstring.lt_of_test position)

theorem pairwise_positions : bitstring.positions.Pairwise (· < ·) :=
  List.pairwise_lt_range.filter _

theorem lowest?_eq_head? : bitstring.lowest? = bitstring.positions.head? :=
  List.head?_filter.symm

theorem count_eq_length : bitstring.count = bitstring.positions.length :=
  List.countP_eq_length_filter

theorem isZero_iff : bitstring.isZero = true ↔ bitstring.positions = [] := by
  have zero : bitstring.isZero = true ↔ bitstring = zero := by
    rw [isZero, decide_eq_true_eq]
    exact ⟨congrArg mk, congrArg bits⟩
  rw [zero, ← lowest?_eq_none, lowest?_eq_head?, List.head?_eq_none_iff]

theorem ofPositions_positions : ofPositions bitstring.positions = .ok bitstring := by
  obtain ⟨again, made, tests⟩ := exists_ofPositions bitstring.positions fun position listed =>
    bitstring.lt_of_test position ((bitstring.mem_positions position).1 listed)
  have same : again = bitstring := ext_test _ _ fun position => by
    rw [Bool.eq_iff_iff, tests, mem_positions]
  rw [made, same]

theorem refused_of_le (beyond : bitCount ≤ position) :
    bitstring.set position = .error (.bitOutOfRange position) ∧
      bitstring.clear position = .error (.bitOutOfRange position) ∧
      bitstring.test position = false :=
  ⟨if_neg (Nat.not_lt_of_le beyond), if_neg (Nat.not_lt_of_le beyond),
    BitVec.getLsbD_of_ge bitstring.bits position beyond⟩

end

/-- All that a bitstring tells is told of one set of positions, and so is what changes make of it. -/
structure Holds (bitstring : Bitstring) (members : Finset Nat) : Prop where
  test_iff (position : Nat) : bitstring.test position = true ↔ position ∈ members
  set (position : Nat) (fits : position < bitCount) : ∃ later, bitstring.set position = .ok later ∧
    ∀ other, later.test other = true ↔ other ∈ insert position members
  clear (position : Nat) (fits : position < bitCount) : ∃ later, bitstring.clear position = .ok later ∧
    ∀ other, later.test other = true ↔ other ∈ members.erase position
  refused (position : Nat) (beyond : bitCount ≤ position) :
    bitstring.set position = .error (.bitOutOfRange position) ∧
      bitstring.clear position = .error (.bitOutOfRange position) ∧
      bitstring.test position = false
  mem_positions (position : Nat) : position ∈ bitstring.positions ↔ position ∈ members
  ascending : bitstring.positions.Pairwise (· < ·)
  lowest?_eq : bitstring.lowest? = bitstring.positions.head?
  count_eq : bitstring.count = bitstring.positions.length
  isZero_iff : bitstring.isZero = true ↔ bitstring.positions = []
  ofPositions_eq : ofPositions bitstring.positions = .ok bitstring

/-- All that a bitstring tells can be told by its words. -/
structure LiesIn (bitstring : Bitstring) (words : List UInt32) : Prop where
  words_eq : bitstring.words = words
  test_eq (position : Nat) : bitstring.test position = Words.test words position
  lowest?_eq : bitstring.lowest? = Words.lowest? words
  count_eq : bitstring.count = Words.count words
  isZero_eq : bitstring.isZero = Words.isZero words

theorem holds_members (bitstring : Bitstring) : bitstring.Holds bitstring.members where
  test_iff position := (bitstring.mem_members position).symm
  set position fits := ⟨_, if_pos fits, fun other => by
    rw [← mem_members, members_or_single bitstring position fits]⟩
  clear position fits := ⟨_, if_pos fits, fun other => by
    rw [← mem_members, members_without_single bitstring position fits]⟩
  refused := bitstring.refused_of_le
  mem_positions position := (bitstring.mem_positions position).trans (bitstring.mem_members position).symm
  ascending := bitstring.pairwise_positions
  lowest?_eq := bitstring.lowest?_eq_head?
  count_eq := bitstring.count_eq_length
  isZero_iff := bitstring.isZero_iff
  ofPositions_eq := bitstring.ofPositions_positions

theorem liesIn_words (bitstring : Bitstring) : bitstring.LiesIn bitstring.words where
  words_eq := rfl
  test_eq := congrFun bitstring.test_eq_words
  lowest?_eq := bitstring.lowest?_eq_words
  count_eq := bitstring.count_eq_words
  isZero_eq := bitstring.isZero_eq_words

end Bitstring

namespace Building
open PositionSets

/-- However bitstrings are made from words and from lists of positions, changed, and joined with others:
there is a bitstring exactly if all listed positions fit, and otherwise the error is that of building a set.
Where changes are refused, nothing changes. The bitstring holds the set of positions that is built in the
same way with insertion, removal, intersection, union and symmetric difference, and it lies in the words
that are built in the same way word by word. -/
theorem holds_what_is_built (building : Building) :
    ((∃ bitstring, building.build bitstrings = .ok bitstring) ↔
      ∀ position ∈ building.listed, position < bitCount) ∧
    (∀ error, building.build bitstrings = .error error →
      building.build finsets = .error error ∧ building.build wordLists = .error error) ∧
    ∀ bitstring, building.build bitstrings = .ok bitstring →
      (∃ members, building.build finsets = .ok members ∧ bitstring.Holds members) ∧
      ∃ words, building.build wordLists = .ok words ∧ bitstring.LiesIn words := by
  have ofSet := seen_members.map_build building
  have ofList := seen_words.map_build building
  refine ⟨?_, fun error failed => ?_, fun bitstring built => ?_⟩
  · rw [← building.exists_build_iff, ← ofSet]
    cases building.build bitstrings <;> simp [Except.map]
  · rw [← ofSet, ← ofList, failed]
    exact ⟨rfl, rfl⟩
  · rw [built] at ofSet ofList
    exact ⟨⟨_, ofSet.symm, bitstring.holds_members⟩, ⟨_, ofList.symm, bitstring.liesIn_words⟩⟩

def borders : Building :=
  .xor (.clear (.set (.set (.ofPositions [64, 3, 31, 127]) 500) 32) 3)
    (.or (.and (.ofWords 0x80000001 3 0 0) (.ofPositions [33, 0, 31])) (.ofPositions [96]))

theorem holds_what_is_built_borders :
    borders.build bitstrings = .ok (.ofWords 1 3 1 0x80000001) ∧
    (Bitstring.ofWords 1 3 1 0x80000001).Holds {0, 32, 33, 64, 96, 127} ∧
    (Bitstring.ofWords 1 3 1 0x80000001).LiesIn [1, 3, 1, 0x80000001] ∧
    (set (.ofPositions [5, 200, 300]) 7).build bitstrings = .error (.bitOutOfRange 200) ∧
    (set (.ofPositions [5, 200, 300]) 7).build wordLists = .error (.bitOutOfRange 200) := by
  obtain ⟨_, _, told⟩ := holds_what_is_built borders
  obtain ⟨_, refused, _⟩ := holds_what_is_built (set (.ofPositions [5, 200, 300]) 7)
  have built : borders.build bitstrings = .ok (.ofWords 1 3 1 0x80000001) := by decide +kernel
  have ofList : borders.build wordLists = .ok [1, 3, 1, 0x80000001] := by decide +kernel
  have failed : (set (.ofPositions [5, 200, 300]) 7).build bitstrings =
      .error (.bitOutOfRange 200) := by decide +kernel
  obtain ⟨⟨members, found, holds⟩, words, found', lies⟩ := told _ built
  have same : members = {0, 32, 33, 64, 96, 127} := by
    obtain rfl := Except.ok.inj (show Except.ok _ = Except.ok members from found)
    decide +kernel
  subst same
  cases ofList.symm.trans found'
  exact ⟨built, holds, lies, failed, (refused _ failed).2⟩

end Building
end Multicast
