import FieldGateway.Proofs.Binary.Extremes
import FieldGateway.Proofs.Json.Numeral
import FieldGateway.Telemetry.Conversion

-- A number is taken for true when it is not zero, unless no double tells it from zero or from an
-- infinity.
namespace FieldGateway

namespace Json.Numeral

variable {n : Numeral}

def rational (n : Numeral) : ℚ := if n.negative then -n.value else n.value

theorem value_nonneg (n : Numeral) : 0 ≤ n.value := by
  unfold value Binary.decimalValue
  positivity

theorem abs_rational (n : Numeral) : |n.rational| = n.value := by
  have nonneg := n.value_nonneg
  unfold rational
  split
  · rw [abs_neg, abs_of_nonneg nonneg]
  · exact abs_of_nonneg nonneg

theorem rational_eq_zero_iff (n : Numeral) : n.rational = 0 ↔ n.coefficient = 0 := by
  have power : (10 : ℚ) ^ n.scale ≠ 0 := by positivity
  rw [← abs_eq_zero, abs_rational, value, Binary.decimalValue, mul_eq_zero, or_iff_left power, Nat.cast_eq_zero]

def Vanishes (n : Numeral) : Prop := |n.rational| ≤ 1 / 2 * 2 ^ (-1074 : Int)

def Overflows (n : Numeral) : Prop := (2 ^ 53 - 1 / 2) * 2 ^ (971 : Int) ≤ |n.rational|

-- Not zero, and yet no double other than zero is near.
def Lost (n : Numeral) : Prop := n.rational ≠ 0 ∧ (n.Vanishes ∨ n.Overflows)

theorem vanishes_of_zero (zero : n.rational = 0) : n.Vanishes := by
  unfold Vanishes
  rw [zero, abs_zero]
  positivity

theorem toBinary_nonzero_iff (n : Numeral) :
    (∃ x, n.toBinary .double = .finite x ∧ x.mantissa ≠ 0) ↔ ¬ n.Vanishes ∧ ¬ n.Overflows := by
  unfold Vanishes Overflows
  rw [abs_rational, not_le, not_le]
  exact Binary.ofDecimal_nonzero_iff Format.double_roomy Format.double_reached

end Json.Numeral

namespace Value

open Json (Numeral)

theorem ofBool_answer (n : Numeral) :
    ∃ b, ofBool (.number n) = .ok (.bool b) ∧ (b = true ↔ ¬ n.Vanishes ∧ ¬ n.Overflows) := by
  refine ⟨_, rfl, ?_⟩
  rw [← n.toBinary_nonzero_iff]
  cases read : n.toBinary .double with
  | finite x => simp [Numeral.toDouble?, read, Finite.isZero]
  | infinite negative => simp [Numeral.toDouble?, read]
  | nan => simp [Numeral.toDouble?, read]

-- Every number has a truth value. It is the test for zero, apart from numbers that are too small
-- or too large for a double, which are taken for false.
theorem ofReading_truth (n : Numeral) :
    ∃ b, ofReading .bool (.number n) = .ok (.bool b) ∧
      (n.Lost → b = false) ∧ (¬ n.Lost → (b = true ↔ n.rational ≠ 0)) := by
  obtain ⟨b, answer, test⟩ := ofBool_answer n
  refine ⟨b, answer, ?_, ?_⟩
  · intro lost
    rw [← Bool.not_eq_true, test]
    intro seen
    exact lost.2.elim seen.1 seen.2
  · intro regular
    rw [test]
    constructor
    · intro seen zero
      exact seen.1 (Numeral.vanishes_of_zero zero)
    · intro nonzero
      exact not_or.mp fun lost => regular ⟨nonzero, lost⟩

def half : Numeral := ⟨true, 0, (Digit.run "5").1, none⟩

theorem half_not_lost : ¬ half.Lost := by
  have near : ∃ x, half.toBinary .double = .finite x ∧ x.mantissa ≠ 0 := ⟨_, rfl, by decide⟩
  obtain ⟨visible, within⟩ := half.toBinary_nonzero_iff.mp near
  intro lost
  exact lost.2.elim visible within

theorem ofReading_truth_half : half.rational ≠ 0 ∧ ofReading .bool (.number half) = .ok (.bool true) := by
  have nonzero : half.rational ≠ 0 := by
    rw [Ne, Numeral.rational_eq_zero_iff]
    decide
  obtain ⟨b, accepted, -, test⟩ := ofReading_truth half
  rw [(test half_not_lost).mpr nonzero] at accepted
  exact ⟨nonzero, accepted⟩

def huge : Numeral := ⟨false, 1, [], some ⟨false, Digit.zero, (Digit.run "400").1⟩⟩
def tiny : Numeral := ⟨false, 1, [], some ⟨true, Digit.zero, (Digit.run "400").1⟩⟩

theorem nonzero_read_as_false :
    (huge.rational ≠ 0 ∧ ofReading .bool (.number huge) = .ok (.bool false)) ∧
      tiny.rational ≠ 0 ∧ ofReading .bool (.number tiny) = .ok (.bool false) := by
  simp only [Ne, Numeral.rational_eq_zero_iff]
  exact ⟨⟨by decide, rfl⟩, by decide, rfl⟩

end Value
end FieldGateway
