import Mathlib

/-!
Rounding to floats. A positive float that is not too small is a number of 53 binary digits times a
power of two, and a number of more digits is rounded to the nearest of these. Main statements: a
greater number is not rounded to a lesser float, and the quotient of a float by one that is not
less is at most one.
-/

namespace Multicast
open Float.Model Float.Model.UnpackedFloat

/-- The positive float `mantissa * 2 ^ exponent`, with a mantissa of 53 binary digits. -/
structure NormalFloat where
  mantissa : Nat
  exponent : Int
  low : 2 ^ 52 ≤ mantissa
  high : mantissa < 2 ^ 53
  least : -1074 ≤ exponent
  most : exponent ≤ 971

namespace NormalFloat

theorem log2_mantissa (number : NormalFloat) : number.mantissa.log2 = 52 :=
  (Nat.log2_eq_iff (Nat.ne_of_gt (Nat.lt_of_lt_of_le (by decide) number.low))).2
    ⟨number.low, number.high⟩

def unpacked (number : NormalFloat) : UnpackedFloat :=
  .finite .positive number.mantissa number.exponent (Nat.lt_of_lt_of_le (by decide) number.low)

def toFloat (number : NormalFloat) : Float := .ofModel (.pack number.unpacked)

theorem exponentField_eq (biased : Nat) (low : 0 < biased) (high : biased < 2047) :
    (BitVec.ofNat 11 biased).toNat = biased ∧ BitVec.ofNat 11 biased ≠ -1#_ ∧
      BitVec.ofNat 11 biased ≠ 0#_ := by
  have kept : (BitVec.ofNat 11 biased).toNat = biased := by
    rw [BitVec.toNat_ofNat]
    exact Nat.mod_eq_of_lt (by omega)
  refine ⟨kept, fun same => ?_, fun same => ?_⟩
  · have value := congrArg BitVec.toNat same
    rw [kept] at value
    have top : (-1#11 : BitVec 11).toNat = 2047 := by decide
    omega
  · have value := congrArg BitVec.toNat same
    rw [kept] at value
    have bottom : (0#11 : BitVec 11).toNat = 0 := rfl
    omega

theorem mantissaField_eq (mantissa : Nat) (low : 2 ^ 52 ≤ mantissa) (high : mantissa < 2 ^ 53) :
    (1#1 ++ BitVec.ofNat 52 mantissa).toNat = mantissa := by
  have one : (1#1 : BitVec 1).toNat <<< 52 = 2 ^ 52 := by decide
  have digits : (BitVec.ofNat 52 mantissa).toNat = mantissa % 2 ^ 52 := BitVec.toNat_ofNat ..
  rw [BitVec.toNat_append, ← Nat.shiftLeft_add_eq_or_of_lt (BitVec.isLt _), one, digits]
  omega

theorem unpack_toFloat (number : NormalFloat) : number.toFloat.toModel.unpack = number.unpacked := by
  obtain ⟨mantissa, exponent, low, high, least, most⟩ := number
  have full := log2_mantissa ⟨mantissa, exponent, low, high, least, most⟩
  obtain ⟨biased, bias⟩ : ∃ biased : Nat, (biased : Int) = exponent + 1023 + 52 :=
    ⟨(exponent + 1023 + 52).toNat, Int.toNat_of_nonneg (by omega)⟩
  have stored : (exponent + (Format.binary64.exponentBias : Nat) +
      (Format.binary64.mantissaBitsWithoutImplicit : Nat)).toNat = biased := by
    have wide : Format.binary64.exponentBias = 1023 := rfl
    rw [wide]
    dsimp only
    omega
  obtain ⟨kept, finite, normal⟩ := exponentField_eq biased (by omega) (by omega)
  have implied := mantissaField_eq mantissa low high
  have packed : (toFloat ⟨mantissa, exponent, low, high, least, most⟩).toModel.toBits.toBitVec =
      packComponents Format.binary64 .positive (BitVec.ofNat 11 biased) (BitVec.ofNat 52 mantissa) := by
    have fits : ¬2 ^ 11 ≤ biased + 1 := by omega
    simp only [toFloat, unpacked, Float.Model.pack, UnpackedFloat.pack, stored, full]
    rw [if_neg fits]
    rfl
  have positive : Sign.ofBitVec (unpackSign (packComponents Format.binary64 .positive
      (BitVec.ofNat 11 biased) (BitVec.ofNat 52 mantissa))) = .positive := by
    rw [unpackSign_packComponents]
    rfl
  unfold Float.Model.unpack UnpackedFloat.unpack
  rw [packed]
  simp only [unpackMantissa_packComponents, unpackExponent_packComponents, if_neg finite,
    if_neg normal, positive, kept, implied, unpacked]
  congr 1
  have wide : Format.binary64.exponentBias = 1023 := rfl
  rw [wide]
  omega

instance : LE NormalFloat where
  le number other := number.exponent < other.exponent ∨
    number.exponent = other.exponent ∧ number.mantissa ≤ other.mantissa

theorem toFloat_le (number other : NormalFloat) (least : number ≤ other) :
    number.toFloat ≤ other.toFloat := by
  change decide (number.toFloat.toModel.unpack.le other.toFloat.toModel.unpack = true) = true
  rw [decide_eq_true_iff, unpack_toFloat, unpack_toFloat]
  unfold unpacked UnpackedFloat.le UnpackedFloat.compare
  rw [Option.any_some]
  rcases least with less | ⟨same, least⟩
  · rw [Int.compare_eq_lt.2 less]
    rfl
  · rw [Int.compare_eq_eq.2 same, Ordering.eq_then, Nat.isLE_compare]
    exact least

def ofRounded (mantissa : Nat) (exponent : Int) (low : 2 ^ 52 ≤ mantissa) (least : -1074 ≤ exponent)
    (most : exponent < 971) : NormalFloat :=
  if high : mantissa < 2 ^ 53 then
    ⟨mantissa, exponent, low, high, least, Int.le_of_lt most⟩
  else
    ⟨2 ^ 52, exponent + 1, Nat.le_refl _, by decide, by omega, by omega⟩

theorem ofRounded_le (mantissa other : Nat) (exponent scale : Int) (low : 2 ^ 52 ≤ mantissa)
    (least : -1074 ≤ exponent) (most : exponent < 971) (low' : 2 ^ 52 ≤ other) (high' : other ≤ 2 ^ 53)
    (least' : -1074 ≤ scale) (most' : scale < 971)
    (less : exponent < scale ∨ exponent = scale ∧ mantissa ≤ other) :
    ofRounded mantissa exponent low least most ≤ ofRounded other scale low' least' most' := by
  change (ofRounded ..).exponent < (ofRounded ..).exponent ∨
    (ofRounded ..).exponent = (ofRounded ..).exponent ∧ (ofRounded ..).mantissa ≤ (ofRounded ..).mantissa
  unfold ofRounded
  split
  · split
    · exact less
    · dsimp only
      omega
  · split
    · dsimp only
      omega
    · dsimp only
      omega

end NormalFloat

/-- An extended mantissa as one number: its value in quarters, where the last quarter stands for
whatever is left. -/
def quarters (extended : ExtendedMantissa) : Nat :=
  4 * extended.mantissa + 2 * extended.roundBit.toNat + extended.stickyBit.toNat

theorem quarters_shiftRightOne_le (one other : ExtendedMantissa) (least : quarters one ≤ quarters other) :
    quarters one.shiftRightOne ≤ quarters other.shiftRightOne := by
  obtain ⟨mantissa, round, sticky⟩ := one
  obtain ⟨mantissa', round', sticky'⟩ := other
  unfold quarters ExtendedMantissa.shiftRightOne at *
  have bit (number : Nat) : (number % 2 != 0).toNat = number % 2 := by
    rcases Nat.mod_two_eq_zero_or_one number with even | odd
    · rw [even]; rfl
    · rw [odd]; rfl
  have sum (round sticky : Bool) : (round || sticky).toNat = max round.toNat sticky.toNat := by
    cases round <;> cases sticky <;> rfl
  simp only [bit, sum] at *
  have := round.toNat_le
  have := round'.toNat_le
  have := sticky.toNat_le
  have := sticky'.toNat_le
  omega

theorem shiftRight_succ (extended : ExtendedMantissa) (places : Nat) :
    extended >>> (places + 1) = (extended >>> places).shiftRightOne :=
  rfl

theorem quarters_shiftRight_le (one other : ExtendedMantissa) (least : quarters one ≤ quarters other)
    (places : Nat) : quarters (one >>> places) ≤ quarters (other >>> places) := by
  induction places with
  | zero => exact least
  | succ places ih =>
    rw [shiftRight_succ, shiftRight_succ]
    exact quarters_shiftRightOne_le _ _ ih

theorem mantissa_shiftRight (extended : ExtendedMantissa) (places : Nat) :
    (extended >>> places).mantissa = extended.mantissa / 2 ^ places := by
  induction places with
  | zero => exact (Nat.div_one _).symm
  | succ places ih =>
    have half : (extended >>> places).shiftRightOne.mantissa = (extended >>> places).mantissa / 2 := rfl
    rw [shiftRight_succ, half, ih, Nat.div_div_eq_div_mul, Nat.pow_succ]

theorem shiftRight_exact (mantissa zeros places : Nat) :
    ExtendedMantissa.ofMantissaAndAccuracy (mantissa <<< zeros) .exact >>> (zeros + places) =
      ExtendedMantissa.ofMantissaAndAccuracy mantissa .exact >>> places := by
  have strip (zeros : Nat) :
      ExtendedMantissa.ofMantissaAndAccuracy (mantissa <<< zeros) .exact >>> zeros =
        ExtendedMantissa.ofMantissaAndAccuracy mantissa .exact := by
    induction zeros generalizing mantissa with
    | zero => rfl
    | succ zeros ih =>
      rw [shiftRight_succ, Nat.add_comm, Nat.shiftLeft_add, ih]
      unfold ExtendedMantissa.ofMantissaAndAccuracy ExtendedMantissa.shiftRightOne
      rw [Nat.shiftLeft_eq]
      simp
  induction places with
  | zero => exact strip zeros
  | succ places ih => rw [← Nat.add_assoc, shiftRight_succ, ih, shiftRight_succ]

theorem roundedMantissa_bounds (extended : ExtendedMantissa) :
    extended.mantissa ≤ extended.roundedMantissa ∧
      extended.roundedMantissa ≤ extended.mantissa + 1 := by
  obtain ⟨mantissa, round, sticky⟩ := extended
  cases round <;> cases sticky <;>
    simp only [ExtendedMantissa.roundedMantissa, ExtendedMantissa.accuracy,
      Accuracy.roundToNearestEven] <;> omega

theorem roundedMantissa_le (one other : ExtendedMantissa) (least : quarters one ≤ quarters other) :
    one.roundedMantissa ≤ other.roundedMantissa := by
  obtain ⟨mantissa, round, sticky⟩ := one
  obtain ⟨mantissa', round', sticky'⟩ := other
  unfold quarters at least
  cases round <;> cases sticky <;> cases round' <;> cases sticky' <;>
    simp only [ExtendedMantissa.roundedMantissa, ExtendedMantissa.accuracy,
      Accuracy.roundToNearestEven, Bool.toNat_true, Bool.toNat_false] at * <;> omega

theorem mantissa_ofMantissaAndAccuracy (mantissa : Nat) (accuracy : Accuracy) :
    (ExtendedMantissa.ofMantissaAndAccuracy mantissa accuracy).mantissa = mantissa := by
  cases accuracy with
  | exact => rfl
  | inexact order => cases order <;> rfl

theorem shiftToTargetExponent_eq (mantissa places : Nat) (exponent : Int) (accuracy : Accuracy)
    (long : mantissa.log2 = 52 + places) (least : -1074 ≤ exponent + places) :
    shiftToTargetExponent Format.binary64 mantissa exponent accuracy =
      (ExtendedMantissa.ofMantissaAndAccuracy mantissa accuracy >>> places, exponent + places) := by
  have target : (Format.binary64.targetExponent (totalExponent mantissa exponent) - exponent).toNat =
      places := by
    simp only [Format.targetExponent, totalExponent, Format.mantissaBits, Format.minExponent, long]
    omega
  simp only [shiftToTargetExponent, shiftToExponent, target]

theorem roundedMantissa_range (mantissa places : Nat) (accuracy : Accuracy)
    (long : mantissa.log2 = 52 + places) :
    2 ^ 52 ≤ (ExtendedMantissa.ofMantissaAndAccuracy mantissa accuracy >>> places).roundedMantissa ∧
      (ExtendedMantissa.ofMantissaAndAccuracy mantissa accuracy >>> places).roundedMantissa ≤
        2 ^ 53 := by
  have positive : mantissa ≠ 0 := by
    rintro rfl
    rw [Nat.log2_zero] at long
    omega
  obtain ⟨above, below⟩ := (Nat.log2_eq_iff positive).1 long
  obtain ⟨least, most⟩ := roundedMantissa_bounds
    (ExtendedMantissa.ofMantissaAndAccuracy mantissa accuracy >>> places)
  rw [mantissa_shiftRight, mantissa_ofMantissaAndAccuracy] at least most
  have low : 2 ^ 52 ≤ mantissa / 2 ^ places := by
    rw [Nat.le_div_iff_mul_le (Nat.two_pow_pos places), ← Nat.pow_add]
    exact above
  have high : mantissa / 2 ^ places < 2 ^ 53 := by
    rw [Nat.div_lt_iff_lt_mul (Nat.two_pow_pos places), ← Nat.pow_add]
    exact Nat.lt_of_lt_of_eq below (by ring)
  exact ⟨Nat.le_trans low least, Nat.le_trans most high⟩

/-- Rounding up may have made one digit more, which a second shift takes off. -/
theorem unpacked_ofRounded (mantissa : Nat) (exponent : Int) (low : 2 ^ 52 ≤ mantissa)
    (high : mantissa ≤ 2 ^ 53) (least : -1074 ≤ exponent) (most : exponent < 971) :
    let settled := shiftToTargetExponent Format.binary64 mantissa exponent .exact
    (if zero : settled.1.mantissa = 0 then UnpackedFloat.zero .positive
      else .finite .positive settled.1.mantissa settled.2 (Nat.pos_of_ne_zero zero)) =
        (NormalFloat.ofRounded mantissa exponent low least most).unpacked := by
  by_cases short : mantissa < 2 ^ 53
  · have full : mantissa.log2 = 52 + 0 := (Nat.log2_eq_iff (by omega)).2 ⟨low, short⟩
    have kept := shiftToTargetExponent_eq mantissa 0 exponent .exact full (by omega)
    have nonzero : (ExtendedMantissa.ofMantissaAndAccuracy mantissa .exact >>> 0).mantissa ≠ 0 := by
      rw [mantissa_shiftRight, mantissa_ofMantissaAndAccuracy]
      omega
    simp only [kept, dif_neg nonzero, NormalFloat.ofRounded, dif_pos short, NormalFloat.unpacked]
    congr 1
    omega
  · obtain rfl : mantissa = 2 ^ 53 := by omega
    have kept := shiftToTargetExponent_eq (2 ^ 53) 1 exponent .exact Nat.log2_two_pow (by omega)
    simp only [kept, NormalFloat.ofRounded, dif_neg short, NormalFloat.unpacked]
    rfl

/-- A mantissa of at least 53 digits is rounded to 53 of them. -/
theorem roundWithAccuracy_eq (mantissa places : Nat) (exponent : Int) (accuracy : Accuracy)
    (long : mantissa.log2 = 52 + places) (least : -1074 ≤ exponent + places)
    (most : exponent + places < 971) :
    roundWithAccuracy Format.binary64 .positive mantissa exponent accuracy =
      (NormalFloat.ofRounded
        (ExtendedMantissa.ofMantissaAndAccuracy mantissa accuracy >>> places).roundedMantissa
        (exponent + places) (roundedMantissa_range mantissa places accuracy long).1 least
        most).unpacked := by
  have range := roundedMantissa_range mantissa places accuracy long
  rw [← unpacked_ofRounded _ _ range.1 range.2]
  simp only [roundWithAccuracy, shiftToTargetExponent_eq mantissa places exponent accuracy long least]

theorem log2_shiftLeft (number zeros : Nat) (positive : 0 < number) :
    (number <<< zeros).log2 = number.log2 + zeros := by
  obtain ⟨above, below⟩ := (Nat.log2_eq_iff (Nat.ne_of_gt positive)).1 rfl
  rw [Nat.shiftLeft_eq, Nat.log2_eq_iff (Nat.ne_of_gt (Nat.mul_pos positive (Nat.two_pow_pos zeros)))]
  constructor
  · rw [Nat.pow_add]
    exact Nat.mul_le_mul_right _ above
  · have more : 2 ^ (number.log2 + zeros + 1) = 2 ^ (number.log2 + 1) * 2 ^ zeros := by ring
    rw [more]
    exact Nat.mul_lt_mul_of_pos_right below (Nat.two_pow_pos zeros)

namespace NormalFloat

section
variable (number : Nat) (positive : 0 < number) (small : number < 2 ^ 200)

def digits : ExtendedMantissa :=
  ExtendedMantissa.ofMantissaAndAccuracy (number <<< (52 - number.log2)) .exact >>> (number.log2 - 52)

include positive in
theorem digits_range :
    2 ^ 52 ≤ (digits number).roundedMantissa ∧ (digits number).roundedMantissa ≤ 2 ^ 53 :=
  roundedMantissa_range _ _ _ (by rw [log2_shiftLeft number _ positive]; omega)

include positive small in
theorem log2_small : number.log2 < 200 :=
  (Nat.log2_lt (Nat.ne_of_gt positive)).2 small

def ofNat : NormalFloat :=
  ofRounded (digits number).roundedMantissa (number.log2 - 52) (digits_range number positive).1
    (by omega) (by have := log2_small number positive small; omega)

theorem roundWithAccuracy_shiftLeft (zeros : Nat) (filled : 52 ≤ number.log2 + zeros) :
    roundWithAccuracy Format.binary64 .positive (number <<< zeros) (-zeros) .exact =
      (ofNat number positive small).unpacked := by
  have bounded := log2_small number positive small
  have long : (number <<< zeros).log2 = 52 + (number.log2 + zeros - 52) := by
    rw [log2_shiftLeft number zeros positive]
    omega
  have scaled : (-zeros : Int) + (number.log2 + zeros - 52 : Nat) = number.log2 - 52 := by omega
  have same : ExtendedMantissa.ofMantissaAndAccuracy (number <<< zeros) .exact >>>
      (number.log2 + zeros - 52) = digits number := by
    obtain ⟨more, rfl⟩ : ∃ more, zeros = 52 - number.log2 + more :=
      ⟨zeros - (52 - number.log2), by omega⟩
    have places : number.log2 + (52 - number.log2 + more) - 52 = more + (number.log2 - 52) := by omega
    rw [Nat.shiftLeft_add, places, shiftRight_exact]
    rfl
  rw [roundWithAccuracy_eq _ _ _ _ long (by omega) (by omega)]
  simp only [same, scaled]
  rfl

theorem ofNat_le (other : Nat) (positive' : 0 < other) (small' : other < 2 ^ 200)
    (least : number ≤ other) : ofNat number positive small ≤ ofNat other positive' small' := by
  have shorter : number.log2 ≤ other.log2 := by
    rw [Nat.le_log2 (Nat.ne_of_gt positive')]
    exact Nat.le_trans (Nat.log2_self_le (Nat.ne_of_gt positive)) least
  refine ofRounded_le _ _ _ _ _ _ _ _ (digits_range other positive').2 _ _ ?_
  rcases Nat.lt_or_eq_of_le shorter with shorter | same
  · exact .inl (by omega)
  · refine .inr ⟨by omega, ?_⟩
    unfold digits
    rw [same]
    refine roundedMantissa_le _ _ (quarters_shiftRight_le _ _ ?_ _)
    simp only [quarters, ExtendedMantissa.ofMantissaAndAccuracy, Nat.shiftLeft_eq]
    exact Nat.add_le_add_right (Nat.add_le_add_right (Nat.mul_le_mul_left 4
      (Nat.mul_le_mul_right _ least)) _) _

theorem exponent_ofNat :
    -52 ≤ (ofNat number positive small).exponent ∧ (ofNat number positive small).exponent < 200 := by
  have bounded := log2_small number positive small
  unfold ofNat ofRounded
  split
  · dsimp only
    omega
  · dsimp only
    omega

theorem toFloat_toUInt64 (size : number < UInt64.size) :
    number.toUInt64.toFloat = (ofNat number positive small).toFloat := by
  have bounded := log2_small number positive small
  have target : Format.binary64.targetExponent (totalExponent number 0) = number.log2 - 52 := by
    simp only [Format.targetExponent, totalExponent, Format.mantissaBits, Format.minExponent]
    omega
  have places : (-((number.log2 : Int) - 52)).toNat = 52 - number.log2 := by omega
  have rounded : UnpackedFloat.round Format.binary64 .positive number 0 =
      (ofNat number positive small).unpacked := by
    rw [← roundWithAccuracy_shiftLeft number positive small (52 - number.log2) (by omega)]
    simp only [UnpackedFloat.round, target, decreaseExponent, Int.zero_sub, places]
  have greater : compare (number : Int) 0 = .gt := Int.compare_eq_gt.2 (by omega)
  change Float.ofModel (.pack (UnpackedFloat.ofInt Format.binary64 (number.toUInt64.toNat : Nat))) = _
  rw [UInt64.toNat_ofNat_of_lt' size]
  simp only [UnpackedFloat.ofInt, UnpackedFloat.normalize, greater, Int.toNat_natCast, rounded]
  rfl

theorem unpacked_ofNat (short : number.log2 ≤ 52) :
    ∃ filled, (ofNat number positive small).unpacked =
      .finite .positive (number <<< (52 - number.log2)) (-(52 - number.log2 : Nat)) filled := by
  have places : number.log2 - 52 = 0 := by omega
  have kept : (digits number).roundedMantissa = number <<< (52 - number.log2) := by
    unfold digits
    rw [places]
    rfl
  have below : (digits number).roundedMantissa < 2 ^ 53 := by
    rw [kept, ← Nat.log2_lt (Nat.ne_of_gt (Nat.shiftLeft_pos_iff.2 positive)),
      log2_shiftLeft number _ positive]
    omega
  refine ⟨Nat.shiftLeft_pos_iff.2 positive, ?_⟩
  unfold ofNat ofRounded unpacked
  rw [dif_pos below]
  simp only [kept]
  congr 1
  omega

end

theorem toFloat_mul (number other : Nat) (positive : 0 < number) (positive' : 0 < other)
    (short : number < 2 ^ 53) (short' : other < 2 ^ 53) :
    (ofNat number positive (Nat.lt_trans short (by decide))).toFloat *
        (ofNat other positive' (Nat.lt_trans short' (by decide))).toFloat =
      (ofNat (number * other) (Nat.mul_pos positive positive')
        (Nat.lt_trans (Nat.mul_lt_mul'' short short') (by decide))).toFloat := by
  have few := (Nat.log2_lt (Nat.ne_of_gt positive)).2 short
  have few' := (Nat.log2_lt (Nat.ne_of_gt positive')).2 short'
  obtain ⟨_, exact⟩ := unpacked_ofNat number positive (Nat.lt_trans short (by decide)) (by omega)
  obtain ⟨_, exact'⟩ := unpacked_ofNat other positive' (Nat.lt_trans short' (by decide)) (by omega)
  have product : (number <<< (52 - number.log2)) * (other <<< (52 - other.log2)) =
      (number * other) <<< ((52 - number.log2) + (52 - other.log2)) := by
    simp only [Nat.shiftLeft_eq]
    ring
  have scale : (-(52 - number.log2 : Nat) : Int) + -(52 - other.log2 : Nat) =
      -((52 - number.log2) + (52 - other.log2) : Nat) := by omega
  have long : number.log2 + other.log2 ≤ (number * other).log2 := by
    rw [Nat.le_log2 (Nat.ne_of_gt (Nat.mul_pos positive positive')), Nat.pow_add]
    exact Nat.mul_le_mul (Nat.log2_self_le (Nat.ne_of_gt positive))
      (Nat.log2_self_le (Nat.ne_of_gt positive'))
  have rounded := roundWithAccuracy_shiftLeft (number * other) (Nat.mul_pos positive positive')
    (Nat.lt_trans (Nat.mul_lt_mul'' short short') (by decide))
    ((52 - number.log2) + (52 - other.log2)) (by omega)
  change Float.ofModel (.pack (UnpackedFloat.mul Format.binary64
    (ofNat ..).toFloat.toModel.unpack (ofNat ..).toFloat.toModel.unpack)) = _
  rw [unpack_toFloat, unpack_toFloat, exact, exact']
  simp only [UnpackedFloat.mul, product, scale]
  exact congrArg (fun unpacked => Float.ofModel (.pack unpacked)) rounded

def one : NormalFloat := ⟨2 ^ 52, -52, Nat.le_refl _, by decide, by decide, by decide⟩

theorem toFloat_one : one.toFloat = 1.0 := by decide +kernel

theorem ofRounded_le_one (mantissa : Nat) (exponent : Int) (low : 2 ^ 52 ≤ mantissa)
    (high : mantissa ≤ 2 ^ 53) (least : -1074 ≤ exponent) (most : exponent < 971)
    (less : exponent ≤ -53 ∨ exponent = -52 ∧ mantissa ≤ 2 ^ 52) :
    ofRounded mantissa exponent low least most ≤ one := by
  rcases less with less | ⟨same, less⟩
  · refine ofRounded_le mantissa (2 ^ 53) exponent (-53) low least most (by decide) (Nat.le_refl _)
      (by decide) (by decide) ?_
    rcases Int.lt_or_eq_of_le less with less | same
    · exact .inl less
    · exact .inr ⟨same, high⟩
  · exact ofRounded_le mantissa (2 ^ 52) exponent (-52) low least most (Nat.le_refl _) (by decide)
      (by decide) (by decide) (.inr ⟨same, less⟩)

theorem divCore_eq (number other : NormalFloat) (near : -1000 ≤ number.exponent - other.exponent) :
    divCore Format.binary64 number.mantissa number.exponent other.mantissa other.exponent =
      ((number.mantissa <<< 53) / other.mantissa, number.exponent - other.exponent - 53,
        accuracyOfFraction ((number.mantissa <<< 53) % other.mantissa) other.mantissa) := by
  have target : Format.binary64.targetExponent (totalExponent number.mantissa number.exponent -
      totalExponent other.mantissa other.exponent) = number.exponent - other.exponent - 53 := by
    simp only [Format.targetExponent, totalExponent, Format.mantissaBits, Format.minExponent,
      number.log2_mantissa, other.log2_mantissa]
    omega
  have below : min (number.exponent - other.exponent) (number.exponent - other.exponent - 53) =
      number.exponent - other.exponent - 53 := by omega
  have places : (number.exponent - other.exponent -
      (number.exponent - other.exponent - 53)).toNat = 53 := by omega
  simp only [divCore, target, below, places]

theorem div_mantissa (number other : NormalFloat) :
    2 ^ 52 ≤ (number.mantissa <<< 53) / other.mantissa ∧
      (number.mantissa <<< 53) / other.mantissa < 2 ^ 54 := by
  have positive : 0 < other.mantissa := Nat.lt_of_lt_of_le (by decide) other.low
  have low := number.low
  have high := number.high
  have low' := other.low
  have high' := other.high
  rw [Nat.shiftLeft_eq, Nat.le_div_iff_mul_le positive, Nat.div_lt_iff_lt_mul positive]
  omega

/-- Only equal mantissas have a quotient of one, and they divide without a remainder. -/
theorem div_mantissa_eq (number other : NormalFloat) (least : number.mantissa ≤ other.mantissa)
    (whole : 2 ^ 53 ≤ (number.mantissa <<< 53) / other.mantissa) :
    (number.mantissa <<< 53) / other.mantissa = 2 ^ 53 ∧
      (number.mantissa <<< 53) % other.mantissa = 0 := by
  have positive : 0 < other.mantissa := Nat.lt_of_lt_of_le (by decide) other.low
  rw [Nat.shiftLeft_eq] at *
  rw [Nat.le_div_iff_mul_le positive] at whole
  have same : number.mantissa = other.mantissa := by omega
  rw [same, Nat.mul_mod_right, Nat.mul_comm, Nat.mul_div_cancel _ positive]
  exact ⟨rfl, rfl⟩

theorem div_le_one (number other : NormalFloat) (least : number ≤ other)
    (near : -1000 ≤ number.exponent - other.exponent) :
    ∃ quotient, UnpackedFloat.div Format.binary64 number.unpacked other.unpacked =
      unpacked quotient ∧ quotient ≤ one := by
  have below : number.exponent ≤ other.exponent :=
    least.elim Int.le_of_lt fun same => Int.le_of_eq same.1
  obtain ⟨low, high⟩ := div_mantissa number other
  have equal := div_mantissa_eq number other
  have cut := divCore_eq number other near
  generalize (number.mantissa <<< 53) / other.mantissa = mantissa at *
  generalize (number.mantissa <<< 53) % other.mantissa = rest at *
  have first : 52 ≤ mantissa.log2 := (Nat.le_log2 (by omega)).2 low
  have last : mantissa.log2 < 54 := (Nat.log2_lt (by omega)).2 high
  obtain ⟨places, long⟩ := Nat.exists_eq_add_of_le first
  have least' : -1074 ≤ number.exponent - other.exponent - 53 + (places : Int) := by omega
  have most' : number.exponent - other.exponent - 53 + (places : Int) < 971 := by omega
  have rounded := roundWithAccuracy_eq mantissa places (number.exponent - other.exponent - 53)
    (accuracyOfFraction rest other.mantissa) long least' most'
  obtain ⟨low', high'⟩ :=
    roundedMantissa_range mantissa places (accuracyOfFraction rest other.mantissa) long
  refine ⟨ofRounded _ _ low' least' most', ?_, ofRounded_le_one _ _ low' high' least' most' ?_⟩
  · simp only [unpacked, UnpackedFloat.div, cut]
    exact rounded
  · by_cases short : number.exponent - other.exponent - 53 + (places : Int) ≤ -53
    · exact .inl short
    · have smaller : number.mantissa ≤ other.mantissa := by
        rcases least with less | ⟨_, less⟩
        · omega
        · exact less
      have single : places = 1 := by omega
      obtain ⟨rfl, rfl⟩ := equal smaller ((Nat.le_log2 (by omega)).1 (by omega))
      subst single
      have exact : accuracyOfFraction 0 other.mantissa = .exact := rfl
      refine .inr ⟨by omega, ?_⟩
      rw [exact]
      decide

theorem toFloat_div_le_one (number other : NormalFloat) (least : number ≤ other)
    (near : -1000 ≤ number.exponent - other.exponent) : number.toFloat / other.toFloat ≤ 1.0 := by
  obtain ⟨quotient, divided, bounded⟩ := div_le_one number other least near
  have same : number.toFloat / other.toFloat = quotient.toFloat := by
    change Float.ofModel (.pack (UnpackedFloat.div Format.binary64
      number.toFloat.toModel.unpack other.toFloat.toModel.unpack)) = _
    rw [unpack_toFloat, unpack_toFloat, divided]
    rfl
  rw [same, ← toFloat_one]
  exact toFloat_le quotient one bounded

end NormalFloat
end Multicast
