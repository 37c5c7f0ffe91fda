import FieldGateway.Binary.Format
import Mathlib.Algebra.Order.Field.Power
import Mathlib.Data.Rat.Cast.Order
import Mathlib.Tactic.Linarith
import Mathlib.Tactic.Positivity
import Mathlib.Tactic.Ring

-- Binary numbers as rationals. Each one covers an interval of rationals, which end halfway to
-- its neighbours, and rounding to the nearest keeps the order of rationals and numbers.
namespace FieldGateway

theorem zpow_eq_fraction (base : Nat) (e : Int) :
    (base : ℚ) ^ e = (base ^ e.toNat : Nat) / (base ^ (-e).toNat : Nat) := by
  obtain ⟨k, rfl | rfl⟩ := e.eq_nat_or_neg
  · simp
  · simp [zpow_neg]

theorem two_mul_zpow_le {d e : Int} (less : d < e) : 2 * (2 : ℚ) ^ d ≤ 2 ^ e := by
  calc 2 * (2 : ℚ) ^ d = 2 ^ (d + 1) := by rw [zpow_add_one₀ (by norm_num), mul_comm]
    _ ≤ 2 ^ e := zpow_le_zpow_right₀ (by norm_num) (by omega)

structure Format.Regular (f : Format) : Prop where
  precision : 2 ≤ f.precision

theorem Format.Regular.two_pow_precision (regular : Format.Regular f) :
    2 ^ f.precision = 2 * 2 ^ (f.precision - 1) := by
  have bits := regular.precision
  rw [← Nat.pow_succ']
  congr 1
  omega

theorem Format.double_regular : Format.double.Regular := ⟨by decide⟩
theorem Format.single_regular : Format.single.Regular := ⟨by decide⟩

namespace Finite

variable {f : Format} {x y : Finite f} {r : ℚ}

def magnitude (x : Finite f) : ℚ := x.mantissa * 2 ^ x.exponent

theorem magnitude_eq_ratio (x : Finite f) : x.magnitude = (x.numerator : ℚ) / x.denominator := by
  have power := zpow_eq_fraction 2 x.exponent
  rw [magnitude, numerator, denominator]
  push_cast [Nat.pow_eq] at power ⊢
  rw [power, mul_div_assoc]

theorem denominator_pos (x : Finite f) : 0 < x.denominator := Nat.pow_pos (by decide)

theorem mantissa_lt (x : Finite f) : x.mantissa < 2 ^ f.precision := x.canonical.1

theorem mantissa_succ_le (regular : f.Regular) (x : Finite f) :
    (x.mantissa : ℚ) + 1 ≤ 2 * 2 ^ (f.precision - 1) := by
  have lt := x.mantissa_lt
  rw [regular.two_pow_precision] at lt
  exact_mod_cast lt

theorem least_le (x : Finite f) : f.least ≤ x.exponent := x.canonical.2.1

theorem mantissa_full (above : f.least < x.exponent) : 2 ^ (f.precision - 1) ≤ x.mantissa :=
  x.canonical.2.2.2.resolve_right (ne_of_gt above)

theorem exponent_of_zero (none : x.mantissa = 0) : x.exponent = f.least := by
  by_contra above
  have full := x.mantissa_full (lt_of_le_of_ne x.least_le (Ne.symm above))
  have power : 0 < 2 ^ (f.precision - 1) := Nat.pow_pos (by decide)
  omega

theorem ext_parts (sign : x.negative = y.negative) (mantissa : x.mantissa = y.mantissa)
    (exponent : x.exponent = y.exponent) : x = y := by
  cases x; cases y
  simp_all

def narrow (x : Finite f) : Prop := x.mantissa = 2 ^ (f.precision - 1) ∧ x.exponent ≠ f.least

instance (x : Finite f) : Decidable x.narrow := inferInstanceAs (Decidable (_ ∧ _))

def lower (x : Finite f) : ℚ := (x.mantissa - if x.narrow then 1 / 4 else 1 / 2) * 2 ^ x.exponent
def upper (x : Finite f) : ℚ := (x.mantissa + 1 / 2) * 2 ^ x.exponent

-- Whether a rational rounds to a number. Halves belong to even mantissas.
def Covers (x : Finite f) (r : ℚ) : Prop :=
  if x.mantissa % 2 = 0 then x.lower ≤ r ∧ r ≤ x.upper else x.lower < r ∧ r < x.upper

theorem Covers.bounds (covers : x.Covers r) : x.lower ≤ r ∧ r ≤ x.upper := by
  unfold Covers at covers
  split at covers
  · exact covers
  · exact ⟨covers.1.le, covers.2.le⟩

theorem covers_of_lt (above : x.lower < r) (below : r < x.upper) : x.Covers r := by
  unfold Covers
  split
  · exact ⟨above.le, below.le⟩
  · exact ⟨above, below⟩

theorem half_unit_le (x : Finite f) : x.magnitude - x.lower ≤ 1 / 2 * 2 ^ x.exponent := by
  have unit : (0 : ℚ) < 2 ^ x.exponent := by positivity
  unfold magnitude lower
  split <;> nlinarith

theorem lower_lt (x : Finite f) : x.lower < x.magnitude := by
  have unit : (0 : ℚ) < 2 ^ x.exponent := by positivity
  unfold magnitude lower
  split <;> nlinarith

theorem lt_upper (x : Finite f) : x.magnitude < x.upper := by
  have unit : (0 : ℚ) < 2 ^ x.exponent := by positivity
  unfold magnitude upper
  nlinarith

theorem magnitude_lt_succ (x : Finite f) : x.magnitude < (x.mantissa + 1) * 2 ^ x.exponent := by
  have unit : (0 : ℚ) < 2 ^ x.exponent := by positivity
  unfold magnitude
  nlinarith

theorem upper_lt_succ (x : Finite f) : x.upper < (x.mantissa + 1) * 2 ^ x.exponent := by
  have unit : (0 : ℚ) < 2 ^ x.exponent := by positivity
  unfold upper
  nlinarith

theorem exponent_le (regular : f.Regular) (le : x.magnitude ≤ y.magnitude) : x.exponent ≤ y.exponent := by
  by_contra greater
  rw [not_le] at greater
  have full : (2 : ℚ) ^ (f.precision - 1) ≤ x.mantissa := by
    exact_mod_cast mantissa_full (lt_of_le_of_lt y.least_le greater)
  have bounded : (y.mantissa : ℚ) < 2 * 2 ^ (f.precision - 1) := by linarith [y.mantissa_succ_le regular]
  have units := two_mul_zpow_le greater
  have unit : (0 : ℚ) < 2 ^ y.exponent := by positivity
  have wrong : y.magnitude < x.magnitude := by
    calc y.magnitude < 2 * 2 ^ (f.precision - 1) * 2 ^ y.exponent := by
          unfold magnitude
          exact mul_lt_mul_of_pos_right bounded unit
      _ = 2 ^ (f.precision - 1) * (2 * 2 ^ y.exponent) := by ring
      _ ≤ x.mantissa * 2 ^ x.exponent := mul_le_mul full units (by positivity) (by positivity)
  exact absurd le (not_le.mpr wrong)

theorem le_exponent (regular : f.Regular) (low : e = f.least ∨ (2 : ℚ) ^ (f.precision - 1) * 2 ^ e ≤ r)
    (reaches : r < (x.mantissa + 1) * 2 ^ x.exponent) : e ≤ x.exponent := by
  rcases low with rfl | low
  · exact x.least_le
  · by_contra above
    have units := two_mul_zpow_le (not_le.mp above)
    have unit : (0 : ℚ) < 2 ^ x.exponent := by positivity
    have top : (0 : ℚ) < 2 ^ (f.precision - 1) := by positivity
    have wrong : r < r := by
      calc r < (x.mantissa + 1) * 2 ^ x.exponent := reaches
        _ ≤ 2 * 2 ^ (f.precision - 1) * 2 ^ x.exponent :=
          mul_le_mul_of_nonneg_right (x.mantissa_succ_le regular) unit.le
        _ = 2 ^ (f.precision - 1) * (2 * 2 ^ x.exponent) := by ring
        _ ≤ 2 ^ (f.precision - 1) * 2 ^ e := mul_le_mul_of_nonneg_left units top.le
        _ ≤ r := low
    exact lt_irrefl r wrong

theorem magnitude_inj (regular : f.Regular) (sign : x.negative = y.negative)
    (same : x.magnitude = y.magnitude) : x = y := by
  have exponent : x.exponent = y.exponent :=
    le_antisymm (exponent_le regular same.le) (exponent_le regular same.ge)
  have unit : (2 : ℚ) ^ y.exponent ≠ 0 := by positivity
  have mantissa : (x.mantissa : ℚ) = y.mantissa := by
    unfold magnitude at same
    rw [exponent] at same
    exact mul_right_cancel₀ unit same
  exact ext_parts sign (by exact_mod_cast mantissa) exponent

-- Larger numbers are a multiple of the unit, so the next one is a whole unit away.
theorem succ_le_magnitude (regular : f.Regular) (less : x.magnitude < y.magnitude) :
    (x.mantissa + 1) * 2 ^ x.exponent ≤ y.magnitude := by
  obtain ⟨k, steps⟩ := Int.le.dest (exponent_le regular less.le)
  have unit : (0 : ℚ) < 2 ^ x.exponent := by positivity
  have multiple : y.magnitude = (y.mantissa * 2 ^ k : Nat) * 2 ^ x.exponent := by
    unfold magnitude
    rw [← steps, zpow_add₀ (by norm_num), zpow_natCast]
    push_cast
    ring
  rw [multiple] at less ⊢
  have mantissas : x.mantissa < y.mantissa * 2 ^ k := by
    exact_mod_cast lt_of_mul_lt_mul_right less unit.le
  refine mul_le_mul_of_nonneg_right ?_ unit.le
  exact_mod_cast Nat.succ_le_of_lt mantissas

theorem magnitude_le_of_exponent_lt (regular : f.Regular) (smaller : x.exponent < y.exponent) :
    x.magnitude ≤ ((2 ^ (f.precision - 1) : Nat) - 1 / 2) * 2 ^ y.exponent := by
  have units := two_mul_zpow_le smaller
  have unit : (0 : ℚ) < 2 ^ x.exponent := by positivity
  have top : (1 : ℚ) ≤ (2 ^ (f.precision - 1) : Nat) := by exact_mod_cast Nat.one_le_two_pow
  have bounded : (x.mantissa : ℚ) ≤ 2 * (2 ^ (f.precision - 1) : Nat) - 1 := by
    have bound := x.mantissa_succ_le regular
    push_cast
    linarith
  calc x.magnitude ≤ (2 * (2 ^ (f.precision - 1) : Nat) - 1) * 2 ^ x.exponent := by
        unfold magnitude
        exact mul_le_mul_of_nonneg_right bounded unit.le
    _ = ((2 ^ (f.precision - 1) : Nat) - 1 / 2) * (2 * 2 ^ x.exponent) := by ring
    _ ≤ _ := mul_le_mul_of_nonneg_left units (by linarith)

theorem lt_lower_of_full (above : f.least < y.exponent) :
    ((2 ^ (f.precision - 1) : Nat) - 1 / 2) * 2 ^ y.exponent < y.lower := by
  refine mul_lt_mul_of_pos_right ?_ (by positivity)
  split
  · rename_i narrow
    rw [narrow.1]
    linarith
  · rename_i wide
    have full := mantissa_full above
    have different : y.mantissa ≠ 2 ^ (f.precision - 1) := fun equal => wide ⟨equal, ne_of_gt above⟩
    have more : 2 ^ (f.precision - 1) + 1 ≤ y.mantissa := by omega
    have more : ((2 ^ (f.precision - 1) : Nat) : ℚ) + 1 ≤ y.mantissa := by exact_mod_cast more
    linarith

theorem lt_lower (regular : f.Regular) (less : x.magnitude < y.magnitude) : x.magnitude < y.lower := by
  rcases (exponent_le regular less.le).eq_or_lt with same | smaller
  · -- One unit apart.
    have unit : (0 : ℚ) < 2 ^ y.exponent := by positivity
    unfold magnitude at less ⊢
    rw [same] at less ⊢
    have mantissas : x.mantissa + 1 ≤ y.mantissa := by
      exact_mod_cast Nat.succ_le_of_lt (by exact_mod_cast lt_of_mul_lt_mul_right less unit.le)
    have mantissas : (x.mantissa : ℚ) + 1 ≤ y.mantissa := by exact_mod_cast mantissas
    refine mul_lt_mul_of_pos_right ?_ unit
    split <;> linarith
  · have least : f.least < y.exponent := lt_of_le_of_lt x.least_le smaller
    exact lt_of_le_of_lt (magnitude_le_of_exponent_lt regular smaller) (lt_lower_of_full least)

theorem upper_lt (regular : f.Regular) (less : x.magnitude < y.magnitude) : x.upper < y.magnitude :=
  x.upper_lt_succ.trans_le (succ_le_magnitude regular less)

theorem Covers.le_of_le (covers : x.Covers r) (regular : f.Regular) (below : y.magnitude ≤ r) :
    y.magnitude ≤ x.magnitude := by
  by_contra less
  have beyond := upper_lt regular (not_le.mp less)
  linarith [covers.bounds.2]

theorem Covers.ge_of_ge (covers : x.Covers r) (regular : f.Regular) (above : r ≤ y.magnitude) :
    x.magnitude ≤ y.magnitude := by
  by_contra less
  have beyond := lt_lower regular (not_le.mp less)
  linarith [covers.bounds.1]

end Finite
end FieldGateway
