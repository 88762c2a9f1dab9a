import Multicast.Proofs.Decimal.Rounding
import Multicast.Simulation.Stats

/-!
Delivery ratios. The packets sent and the destinations of a request are multiplied as floats, and the
deliveries divided by the product. Main statement: the ratio is at most one where no more than is due
has been delivered.
-/

namespace Multicast

theorem countToFloat_eq (count : Nat) (positive : 0 < count) (small : count < UInt64.size) :
    countToFloat count =
      (NormalFloat.ofNat count positive (Nat.lt_trans small (by decide))).toFloat :=
  NormalFloat.toFloat_toUInt64 count positive _ small

theorem countToFloat_zero (number : NormalFloat) :
    countToFloat 0 * number.toFloat = 0.0 ∧ number.toFloat * countToFloat 0 = 0.0 ∧
      countToFloat 0 / number.toFloat = 0.0 := by
  have zero : (countToFloat 0).toModel.unpack = .zero .positive := rfl
  have back : Float.ofModel (.pack (.zero .positive)) = 0.0 := by decide +kernel
  refine ⟨?_, ?_, ?_⟩
  · change Float.ofModel (.pack (Float.Model.UnpackedFloat.mul .binary64
      (countToFloat 0).toModel.unpack number.toFloat.toModel.unpack)) = _
    rw [zero, number.unpack_toFloat]
    exact back
  · change Float.ofModel (.pack (Float.Model.UnpackedFloat.mul .binary64
      number.toFloat.toModel.unpack (countToFloat 0).toModel.unpack)) = _
    rw [zero, number.unpack_toFloat]
    exact back
  · change Float.ofModel (.pack (Float.Model.UnpackedFloat.div .binary64
      (countToFloat 0).toModel.unpack number.toFloat.toModel.unpack)) = _
    rw [zero, number.unpack_toFloat]
    exact back

theorem expected_eq_zero (sent destinations : Nat) (few : sent < 2 ^ 53) (few' : destinations < 2 ^ 53)
    (none : sent * destinations = 0) : countToFloat sent * countToFloat destinations = 0.0 := by
  have both : countToFloat 0 * countToFloat 0 = 0.0 := by decide +kernel
  rcases Nat.eq_zero_or_pos sent with rfl | positive
  · rcases Nat.eq_zero_or_pos destinations with rfl | positive
    · exact both
    · rw [countToFloat_eq destinations positive (Nat.lt_trans few' (by decide))]
      exact (countToFloat_zero _).1
  · obtain rfl : destinations = 0 := (Nat.mul_eq_zero.1 none).resolve_left (Nat.ne_of_gt positive)
    rw [countToFloat_eq sent positive (Nat.lt_trans few (by decide))]
    exact (countToFloat_zero _).2.1

theorem expected_eq (sent destinations : Nat) (few : sent < 2 ^ 53) (few' : destinations < 2 ^ 53)
    (some : 0 < sent * destinations) :
    countToFloat sent * countToFloat destinations =
      (NormalFloat.ofNat (sent * destinations) some
        (Nat.lt_trans (Nat.mul_lt_mul'' few few') (by decide))).toFloat := by
  have positive := Nat.pos_of_mul_pos_right some
  have positive' := Nat.pos_of_mul_pos_left some
  rw [countToFloat_eq sent positive (Nat.lt_trans few (by decide)),
    countToFloat_eq destinations positive' (Nat.lt_trans few' (by decide))]
  exact NormalFloat.toFloat_mul sent destinations positive positive' few few'

/-- The ratio is at most one where no more than is due has been delivered. Beyond 53 binary digits the
packets sent are rounded themselves, and the ratio may come out greater. -/
theorem RequestStats.deliveryRatio_le_one (stats : RequestStats) (few : stats.sent < 2 ^ 53)
    (few' : stats.destinations < 2 ^ 53)
    (due : stats.delivered ≤ stats.sent * stats.destinations) : stats.deliveryRatio ≤ 1.0 := by
  have whole : (1.0 : Float) ≤ 1.0 := by decide +kernel
  unfold deliveryRatio
  rcases Nat.eq_zero_or_pos (stats.sent * stats.destinations) with none | some
  · have zero : ((0.0 : Float) == 0.0) = true := by decide +kernel
    rw [expected_eq_zero stats.sent stats.destinations few few' none]
    simp only [zero]
    exact whole
  · rw [expected_eq stats.sent stats.destinations few few' some]
    dsimp only
    split
    · exact whole
    · have size : 0 < UInt64.size := by decide
      have wrapped : countToFloat stats.delivered = countToFloat (stats.delivered % UInt64.size) :=
        congrArg UInt64.toFloat UInt64.ofNat_mod_size.symm
      have least : stats.delivered % UInt64.size ≤ stats.sent * stats.destinations :=
        Nat.le_trans (Nat.mod_le _ _) due
      rw [wrapped]
      rcases Nat.eq_zero_or_pos (stats.delivered % UInt64.size) with nothing | positive
      · have zero : (0.0 : Float) ≤ 1.0 := by decide +kernel
        rw [nothing, (countToFloat_zero _).2.2]
        exact zero
      · rw [countToFloat_eq _ positive (Nat.mod_lt _ size)]
        refine NormalFloat.toFloat_div_le_one _ _ (NormalFloat.ofNat_le _ _ _ _ _ _ least) ?_
        have low := (NormalFloat.exponent_ofNat _ positive
          (Nat.lt_trans (Nat.mod_lt stats.delivered size) (by decide))).1
        have high := (NormalFloat.exponent_ofNat _ some
          (Nat.lt_trans (Nat.mul_lt_mul'' few few') (by decide))).2
        omega

end Multicast
