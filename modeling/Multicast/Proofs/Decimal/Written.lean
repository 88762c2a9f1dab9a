import Multicast.Decimal.Shortest
import Multicast.Proofs.Text

/-!
Floats as they are written. Main statement: the text of a float has neither white space nor a comma.
-/

namespace Multicast.Decimal
open Text Float.Model

theorem mem_positional (decimal : Decimal) (character : Char)
    (member : character ∈ decimal.positional) : isDigit character = true ∨ character = '.' := by
  have digit := isDigit_of_mem_toDigits decimal.digits character
  have zero (count : Nat) (inside : character ∈ List.replicate count '0') :
      isDigit character = true := by
    rw [List.eq_of_mem_replicate inside]
    decide
  unfold positional at member
  dsimp only at member
  split at member
  · split at member
    · rw [List.mem_singleton] at member
      subst member
      exact .inl (by decide)
    · exact .inl ((List.mem_append.1 member).elim digit (zero _))
  · -- Leading zeros and digits are cut in two at the point.
    have padded (inside : character ∈ List.replicate (decimal.exponent.natAbs + 1 -
        (Nat.toDigits 10 decimal.digits).length) '0' ++ Nat.toDigits 10 decimal.digits) :
        isDigit character = true := (List.mem_append.1 inside).elim (zero _) digit
    rcases List.mem_append.1 member with whole | rest
    · exact .inl (padded (List.mem_of_mem_take whole))
    · rcases List.mem_cons.1 rest with point | fraction
      · exact .inr point
      · exact .inl (padded (List.mem_of_mem_drop fraction))

theorem mem_writeFloat (value : Float) (character : Char) (member : character ∈ writeFloat value) :
    isBlank character = false ∧ character ≠ ',' := by
  have plain (text : List Char) (each : ∀ character ∈ text, isBlank character = false ∧ character ≠ ',')
      (negative : Bool) (inside : character ∈ signed negative text) :
      isBlank character = false ∧ character ≠ ',' := by
    unfold signed at inside
    split at inside
    · rcases List.mem_cons.1 inside with rfl | later
      · decide
      · exact each character later
    · exact each character inside
  have fixed (text : List Char) (all : text.all (fun other => !isBlank other && other != ',') = true) :
      ∀ character ∈ text, isBlank character = false ∧ character ≠ ',' :=
    fun character inside => by simpa using List.all_eq_true.1 all character inside
  unfold writeFloat at member
  split at member
  · exact fixed _ (by decide) character member
  · exact plain _ (fixed _ (by decide)) _ member
  · exact plain _ (fixed _ (by decide)) _ member
  · refine plain _ (fun other inside => ?_) _ member
    rcases mem_positional _ other inside with digit | rfl
    · refine ⟨isBlank_of_isDigit other digit, ?_⟩
      rintro rfl
      exact absurd digit (by decide)
    · decide

theorem trim_writeFloat (value : Float) : trim (writeFloat value) = writeFloat value :=
  trim_of_forall _ fun character member => (mem_writeFloat value character member).1

theorem unpack_zero : (0.0 : Float).toModel.unpack = .zero .positive := by rfl

theorem not_le_zero_iff (value : Float) (finite : value.isFinite = true) :
    ¬value ≤ 0.0 ↔ 0.0 < value := by
  change value.toModel.unpack.isFinite = true at finite
  change ¬decide (value.toModel.unpack.le (0.0 : Float).toModel.unpack = true) = true ↔
    decide ((0.0 : Float).toModel.unpack.lt value.toModel.unpack = true) = true
  rw [unpack_zero]
  generalize value.toModel.unpack = unpacked at finite ⊢
  cases unpacked with
  | infinity => cases finite
  | notANumber => cases finite
  | zero sign =>
    change ¬true = true ↔ false = true
    decide
  | finite sign mantissa exponent positive =>
    cases sign with
    | positive =>
      change ¬false = true ↔ true = true
      decide
    | negative =>
      change ¬true = true ↔ false = true
      decide

end Multicast.Decimal
