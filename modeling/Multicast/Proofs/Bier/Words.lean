import Multicast.Proofs.Bier.Header
import Multicast.Proofs.Bier.Rounds
import Mathlib.Algebra.Ring.Nat
import Mathlib.Data.List.Find

/-!
Bitstrings in words of 32 positions. Main statements: what is done to a bitstring is done to its words one
by one, a position is changed in its own word only, the lowest position stands in the first word that is
not zero, and the positions of all words are counted together.
-/

namespace Multicast

/-! ## Positions of one word -/

theorem find?_range_getLsbD {width : Nat} (word : BitVec width) :
    (List.range width).find? word.getLsbD = if word = 0 then none else some word.ctz.toNat := by
  split
  case isTrue zero =>
    subst zero
    simp
  case isFalse inhabited =>
    rw [List.find?_range_eq_some]
    have inside := BitVec.getLsbD_true_ctz_of_ne_zero inhabited
    refine ⟨inside, List.mem_range.2 (BitVec.lt_of_getLsbD inside), fun lower before => ?_⟩
    rw [BitVec.getLsbD_false_of_lt_ctz before]
    rfl

theorem countP_range_getLsbD {width : Nat} (word : BitVec width) :
    (List.range width).countP word.getLsbD = word.cpop.toNat := by
  have first (count : Nat) : (List.range count).countP word.getLsbD = word.cpopNatRec count 0 := by
    induction count with
    | zero => rfl
    | succ count ih =>
      rw [List.range_succ, List.countP_append, ih, BitVec.cpopNatRec_succ, BitVec.cpopNatRec_add,
        List.countP_singleton]
      cases word.getLsbD count <;> rfl
  rw [first, BitVec.toNat_cpop]

/-! ## Lists of words -/

namespace Words

def mask (position : Nat) : UInt32 := 1 <<< UInt32.ofNat (position % 32)

/-- Whether the bit of a position is set. Words that are not there have no positions. -/
def test (words : List UInt32) (position : Nat) : Bool :=
  words[position / 32]?.any fun word => word &&& mask position ≠ 0

def change (alter : UInt32 → UInt32 → UInt32) (words : List UInt32) (position : Nat) :
    Except BierError (List UInt32) :=
  if position < bitCount then
    .ok (words.modify (position / 32) fun word => alter word (mask position))
  else .error (.bitOutOfRange position)

def set : List UInt32 → Nat → Except BierError (List UInt32) := change fun word bit => word ||| bit

def clear : List UInt32 → Nat → Except BierError (List UInt32) := change fun word bit => word &&& ~~~bit

def ofPositions (positions : List Nat) : Except BierError (List UInt32) :=
  positions.foldlM set (List.replicate 4 0)

def lowest? (words : List UInt32) : Option Nat :=
  (words.zipIdx.find? fun entry => entry.1 ≠ 0).map fun entry =>
    32 * entry.2 + entry.1.toBitVec.ctz.toNat

def count (words : List UInt32) : Nat := (words.map fun word => word.toBitVec.cpop.toNat).sum

def isZero (words : List UInt32) : Bool := words.all fun word => word = 0

theorem toBitVec_mask (position : Nat) : (mask position).toBitVec = BitVec.twoPow 32 (position % 32) := by
  have shift : ((UInt32.ofNat (position % 32)).toBitVec % 32).toNat = position % 32 := by simp
  unfold mask
  rw [UInt32.toBitVec_shiftLeft, BitVec.shiftLeft_eq', shift, BitVec.twoPow_eq]
  rfl

theorem and_mask_ne_zero (word : UInt32) (position : Nat) :
    word &&& mask position ≠ 0 ↔ word.toBitVec.getLsbD (position % 32) = true := by
  have low : position % 32 < 32 := Nat.mod_lt position (by decide)
  have bit : BitVec.twoPow 32 (position % 32) ≠ 0 := by
    intro zero
    have held := BitVec.getLsbD_twoPow (w := 32) (position % 32) (position % 32)
    simp [zero, low] at held
  rw [ne_eq, ← UInt32.toBitVec_inj, UInt32.toBitVec_and, toBitVec_mask, BitVec.and_twoPow]
  change ¬_ = (0 : BitVec 32) ↔ _
  split
  case isTrue held => exact iff_of_true bit held
  case isFalse absent => exact iff_of_false (not_not.2 rfl) absent

theorem test_eq (words : List UInt32) (position : Nat) : test words position =
    words[position / 32]?.any fun word => word.toBitVec.getLsbD (position % 32) := by
  unfold test
  congr 1
  funext word
  rw [Bool.eq_iff_iff, decide_eq_true_eq]
  exact and_mask_ne_zero word position

section
variable (word : UInt32) (words : List UInt32) (position : Nat)

theorem test_cons_of_lt (low : position < 32) :
    test (word :: words) position = word.toBitVec.getLsbD position := by
  rw [test_eq, Nat.div_eq_of_lt low, Nat.mod_eq_of_lt low]
  rfl

theorem test_cons_add : test (word :: words) (32 + position) = test words position := by
  have place : (32 + position) / 32 = position / 32 + 1 := by omega
  rw [test_eq, test_eq, place, Nat.add_mod_left, List.getElem?_cons_succ]

theorem range_cons : List.range (32 * (word :: words).length) =
    List.range 32 ++ (List.range (32 * words.length)).map (32 + ·) := by
  rw [List.length_cons, Nat.mul_succ, Nat.add_comm, List.range_add]

theorem test_cons_comp_add : test (word :: words) ∘ (32 + ·) = test words :=
  funext fun position => test_cons_add word words position

theorem lowest?_cons : lowest? (word :: words) =
    if word = 0 then (lowest? words).map (32 + ·) else some word.toBitVec.ctz.toNat := by
  unfold lowest?
  rw [List.zipIdx_cons, List.find?_cons]
  by_cases zero : word = 0
  · rw [if_pos zero]
    simp only [zero, ne_eq, not_true_eq_false, decide_false]
    -- The words behind the first one stand one place later than in a list of their own.
    rw [List.zipIdx_succ, List.find?_map, Option.map_map, Option.map_map]
    congr 1
    funext entry
    simp only [Function.comp_apply]
    omega
  · simp [zero]

theorem lowest?_eq_find? :
    lowest? words = (List.range (32 * words.length)).find? (test words) := by
  induction words with
  | nil => rfl
  | cons word words ih =>
    have own : (List.range 32).find? (test (word :: words)) =
        if word = 0 then none else some word.toBitVec.ctz.toNat := by
      rw [List.find?_congr fun position listed =>
        test_cons_of_lt word words position (List.mem_range.1 listed), find?_range_getLsbD]
      simp only [← UInt32.toBitVec_inj]
      rfl
    rw [lowest?_cons, range_cons, List.find?_append, List.find?_map, test_cons_comp_add, ← ih, own]
    split <;> rfl

theorem count_eq_countP :
    count words = (List.range (32 * words.length)).countP (test words) := by
  induction words with
  | nil => rfl
  | cons word words ih =>
    have own : (List.range 32).countP (test (word :: words)) = word.toBitVec.cpop.toNat := by
      rw [← countP_range_getLsbD]
      refine List.countP_congr fun position listed => ?_
      rw [test_cons_of_lt word words position (List.mem_range.1 listed)]
    rw [range_cons, List.countP_append, List.countP_map, test_cons_comp_add, ← ih, own]
    rfl

end

end Words

namespace Bitstring

theorem words_eq_map (bitstring : Bitstring) :
    bitstring.words = (List.range 4).map fun index => bitstring.wordFrom (32 * index) := rfl

theorem length_words (bitstring : Bitstring) : bitstring.words.length = 4 := rfl

theorem getElem?_words (bitstring : Bitstring) (index : Nat) : bitstring.words[index]? =
    if index < 4 then some (bitstring.wordFrom (32 * index)) else none := by
  rw [words_eq_map, List.getElem?_map]
  split
  case isTrue inside => rw [List.getElem?_range inside, Option.map_some]
  case isFalse beyond => simp [beyond]

theorem getLsbD_wordFrom (bitstring : Bitstring) (first index : Nat) :
    (bitstring.wordFrom first).toBitVec.getLsbD index =
      (decide (index < 32) && bitstring.test (first + index)) :=
  BitVec.getLsbD_extractLsb' first 32 bitstring.bits index

theorem test_eq_words (bitstring : Bitstring) : bitstring.test = Words.test bitstring.words := by
  funext position
  have place : 32 * (position / 32) + position % 32 = position := Nat.div_add_mod position 32
  have low : position % 32 < 32 := Nat.mod_lt position (by decide)
  rw [Words.test_eq, getElem?_words]
  split
  case isTrue inside =>
    rw [Option.any_some, getLsbD_wordFrom, decide_eq_true low, Bool.true_and, place]
  case isFalse beyond =>
    have outside : 128 ≤ position := by omega
    exact BitVec.getLsbD_of_ge bitstring.bits position outside

theorem lowest?_eq_words (bitstring : Bitstring) :
    bitstring.lowest? = Words.lowest? bitstring.words := by
  rw [Words.lowest?_eq_find?, length_words, ← test_eq_words]
  rfl

theorem count_eq_words (bitstring : Bitstring) : bitstring.count = Words.count bitstring.words := by
  rw [Words.count_eq_countP, length_words, ← test_eq_words]
  rfl

theorem words_injective (one other : Bitstring) (same : one.words = other.words) : one = other :=
  ext_test one other fun position => by rw [test_eq_words, test_eq_words, same]

theorem isZero_eq_words (bitstring : Bitstring) :
    bitstring.isZero = Words.isZero bitstring.words := by
  have zero : bitstring.bits = 0 ↔ bitstring.words = List.replicate 4 0 := by
    constructor
    · intro zero
      unfold words
      rw [zero]
      rfl
    · intro same
      exact congrArg bits (words_injective bitstring ⟨0⟩ same)
  rw [Bool.eq_iff_iff, isZero, decide_eq_true_eq, zero, Words.isZero, List.eq_replicate_iff]
  simp [length_words]

/-! ## Joining and changing -/

section
variable (one other bitstring : Bitstring) (first : Nat)

theorem wordFrom_and : (one &&& other).wordFrom first = one.wordFrom first &&& other.wordFrom first :=
  congrArg UInt32.ofBitVec BitVec.extractLsb'_and

theorem wordFrom_or : (one ||| other).wordFrom first = one.wordFrom first ||| other.wordFrom first :=
  congrArg UInt32.ofBitVec BitVec.extractLsb'_or

theorem wordFrom_xor : (one ^^^ other).wordFrom first = one.wordFrom first ^^^ other.wordFrom first :=
  congrArg UInt32.ofBitVec BitVec.extractLsb'_xor

theorem word_ext (word word' : UInt32)
    (same : ∀ index < 32, word.toBitVec.getLsbD index = word'.toBitVec.getLsbD index) : word = word' :=
  UInt32.toBitVec_inj.1 (BitVec.eq_of_getLsbD_eq same)

theorem wordFrom_without : (one.without other).wordFrom first =
    one.wordFrom first &&& ~~~other.wordFrom first := by
  refine word_ext _ _ fun index low => ?_
  rw [UInt32.toBitVec_and, UInt32.toBitVec_not, BitVec.getLsbD_and, BitVec.getLsbD_not,
    getLsbD_wordFrom, getLsbD_wordFrom, getLsbD_wordFrom, test_without]
  simp [low]

theorem wordFrom_single (position index : Nat) (inside : position < bitCount) :
    (single position).wordFrom (32 * index) =
      if position / 32 = index then Words.mask position else 0 := by
  refine word_ext _ _ fun place low => ?_
  rw [getLsbD_wordFrom, test_single, decide_eq_true inside, decide_eq_true low, Bool.true_and,
    Bool.true_and]
  split
  case isTrue own =>
    have low' : position % 32 < 32 := Nat.mod_lt position (by decide)
    rw [Words.toBitVec_mask, BitVec.getLsbD_twoPow, decide_eq_true low', Bool.true_and,
      decide_eq_decide]
    omega
  case isFalse other =>
    have apart : position ≠ 32 * index + place := by omega
    rw [decide_eq_false apart]
    exact BitVec.getLsbD_zero.symm

theorem words_and : (one &&& other).words = List.zipWith (· &&& ·) one.words other.words := by
  simp [words_eq_map, wordFrom_and]

theorem words_or : (one ||| other).words = List.zipWith (· ||| ·) one.words other.words := by
  simp [words_eq_map, wordFrom_or]

theorem words_xor : (one ^^^ other).words = List.zipWith (· ^^^ ·) one.words other.words := by
  simp [words_eq_map, wordFrom_xor]

/-- What changes all words by those of a single position changes the word that the position is in. -/
theorem words_eq_modify (later : Bitstring) (position : Nat) (inside : position < bitCount)
    (alter : UInt32 → UInt32 → UInt32)
    (changed : ∀ first, later.wordFrom first =
      alter (bitstring.wordFrom first) ((single position).wordFrom first))
    (unchanged : ∀ word, alter word 0 = word) : later.words =
      bitstring.words.modify (position / 32) fun word => alter word (Words.mask position) := by
  refine List.ext_getElem? fun index => ?_
  rw [List.getElem?_modify, getElem?_words, getElem?_words]
  split
  case isTrue =>
    rw [changed, wordFrom_single position index inside]
    split
    · rfl
    · rw [unchanged]
      rfl
  case isFalse => rfl

theorem map_words_set (position : Nat) :
    (bitstring.set position).map words = Words.set bitstring.words position := by
  unfold set Words.set Words.change
  split
  case isTrue inside =>
    exact congrArg Except.ok (bitstring.words_eq_modify _ position inside _
      (wordFrom_or bitstring (single position)) fun _ => UInt32.or_zero)
  case isFalse => rfl

theorem map_words_clear (position : Nat) :
    (bitstring.clear position).map words = Words.clear bitstring.words position := by
  unfold clear Words.clear Words.change
  split
  case isTrue inside =>
    exact congrArg Except.ok (bitstring.words_eq_modify _ position inside (fun word bit => word &&& ~~~bit)
      (wordFrom_without bitstring (single position)) fun _ => by simp)
  case isFalse => rfl

theorem map_words_foldlM (positions : List Nat) :
    (positions.foldlM set bitstring).map words = positions.foldlM Words.set bitstring.words := by
  induction positions generalizing bitstring with
  | nil => rfl
  | cons position rest ih =>
    rw [List.foldlM_cons, List.foldlM_cons, ← map_words_set]
    cases bitstring.set position with
    | error error => rfl
    | ok later => exact ih later

end

end Bitstring
end Multicast
