import FieldGateway.Proofs.Binary.Shortest

-- Where a format ends: below half its smallest positive number everything is rounded to zero, and
-- from half a unit beyond its largest number on nothing is finite any more.
namespace FieldGateway

namespace Format

variable {f : Format}

def vanishing (f : Format) : ℚ := 1 / 2 * 2 ^ f.least
def overflow (f : Format) : ℚ := (2 ^ f.precision - 1 / 2) * 2 ^ f.greatest

structure Roomy (f : Format) : Prop extends f.Regular where
  ordered : f.least ≤ f.greatest

theorem double_roomy : Format.double.Roomy := ⟨double_regular, by decide⟩

theorem vanishing_pos (f : Format) : 0 < f.vanishing := by
  unfold vanishing
  positivity

theorem overflow_le (reached : f.Reached) : f.overflow < 10 ^ Binary.decimalCeiling := by
  have unit : (0 : ℚ) < 2 ^ f.greatest := by positivity
  refine lt_of_lt_of_le ?_ reached.ceiling
  unfold overflow
  nlinarith

end Format

namespace Finite

variable {f : Format} {x : Finite f} {r : ℚ}

def zero (f : Format) (ordered : f.least ≤ f.greatest) (negative : Bool) : Finite f :=
  ⟨negative, 0, f.least, Nat.pow_pos (by decide), le_refl _, ordered, .inr rfl⟩

def largest (f : Format) (roomy : f.Roomy) (negative : Bool) : Finite f :=
  ⟨negative, 2 ^ f.precision - 1, f.greatest, by
    have double := roomy.two_pow_precision
    have top : 0 < 2 ^ (f.precision - 1) := Nat.pow_pos (by decide)
    exact ⟨by simp only [Nat.pow_eq]; omega, roomy.ordered, le_refl _, .inl (by simp only [Nat.pow_eq]; omega)⟩⟩

theorem covers_of_zero_iff (none : x.mantissa = 0) (nonneg : 0 ≤ r) : x.Covers r ↔ r ≤ f.vanishing := by
  have exponent := exponent_of_zero none
  have unit : (0 : ℚ) < 2 ^ f.least := by positivity
  have wide : ¬ x.narrow := fun narrow => narrow.2 exponent
  have below : x.lower ≤ r := by
    unfold lower
    rw [none, exponent, if_neg wide]
    push_cast
    nlinarith
  have upper : x.upper = f.vanishing := by
    unfold upper Format.vanishing
    rw [none, exponent]
    push_cast
    ring
  unfold Covers
  rw [if_pos (by rw [none]), upper]
  exact and_iff_right below

theorem largest_upper (roomy : f.Roomy) (negative : Bool) : (largest f roomy negative).upper = f.overflow := by
  have positive : 1 ≤ 2 ^ f.precision := Nat.one_le_two_pow
  unfold upper largest Format.overflow
  simp only
  rw [Nat.cast_sub positive]
  push_cast
  ring

-- The largest number is odd, so that the end of its interval belongs to the infinity.
theorem Covers.lt_overflow (covers : x.Covers r) (roomy : f.Roomy) : r < f.overflow := by
  have unit : (0 : ℚ) < 2 ^ f.greatest := by positivity
  have double := roomy.two_pow_precision
  have bounded := x.mantissa_lt
  rcases x.canonical.2.2.1.eq_or_lt with top | smaller
  · by_cases full : x.mantissa = 2 ^ f.precision - 1
    · have odd : x.mantissa % 2 ≠ 0 := by omega
      unfold Covers at covers
      rw [if_neg odd] at covers
      refine covers.2.trans_eq ?_
      have same : x = largest f roomy x.negative := ext_parts rfl full top
      rw [same, largest_upper]
    · have fewer : (x.mantissa : ℚ) + 2 ≤ 2 ^ f.precision := by
        exact_mod_cast (by omega : x.mantissa + 2 ≤ 2 ^ f.precision)
      refine covers.bounds.2.trans_lt ?_
      unfold upper Format.overflow
      rw [top]
      nlinarith
  · -- With a smaller unit the number is not even half as large.
    have units := two_mul_zpow_le smaller
    have small : (0 : ℚ) < 2 ^ x.exponent := by positivity
    have fewer : (x.mantissa : ℚ) + 1 ≤ 2 ^ f.precision := by
      exact_mod_cast (by omega : x.mantissa + 1 ≤ 2 ^ f.precision)
    have one : (1 : ℚ) ≤ 2 ^ f.precision := one_le_pow₀ (by norm_num)
    refine covers.bounds.2.trans_lt ?_
    calc x.upper < 2 ^ f.precision * 2 ^ x.exponent := by
          unfold upper
          nlinarith
      _ ≤ (2 ^ f.precision - 1 / 2) * (2 * 2 ^ x.exponent) := by nlinarith
      _ ≤ f.overflow := mul_le_mul_of_nonneg_left units (by linarith)

end Finite

namespace Binary

variable {f : Format} {negative : Bool} {n d c : Nat} {e : Int}

theorem ofRatio_isFinite_iff (negative : Bool) (roomy : f.Roomy) (denominator : 0 < d) :
    (∃ x, ofRatio f negative n d = .finite x) ↔ (n : ℚ) / d < f.overflow := by
  constructor
  · rintro ⟨x, rounded⟩
    exact ((ofRatio_eq_finite_iff roomy.toRegular denominator).mp rounded).2.lt_overflow roomy
  · intro below
    rcases Nat.eq_zero_or_pos n with rfl | numerator
    · exact ⟨Finite.zero f roomy.ordered negative, ofRatio_zero.mpr ⟨rfl, rfl⟩⟩
    · rcases le_or_gt ((n : ℚ) / d) (Finite.largest f roomy negative).magnitude with within | above
      · exact ofRatio_isFinite roomy.toRegular negative numerator denominator within
      · rw [← Finite.largest_upper roomy negative] at below
        have covers := Finite.covers_of_lt ((Finite.largest f roomy negative).lower_lt.trans above) below
        exact ⟨_, (ofRatio_eq_finite_iff roomy.toRegular denominator).mpr ⟨rfl, covers⟩⟩

theorem ofRatio_nonzero_iff (roomy : f.Roomy) (denominator : 0 < d) :
    (∃ x, ofRatio f negative n d = .finite x ∧ x.mantissa ≠ 0) ↔
      f.vanishing < (n : ℚ) / d ∧ (n : ℚ) / d < f.overflow := by
  have nonneg : (0 : ℚ) ≤ n / d := by positivity
  rw [← ofRatio_isFinite_iff negative roomy denominator]
  constructor
  · rintro ⟨x, rounded, some⟩
    refine ⟨?_, x, rounded⟩
    by_contra small
    have covers := (Finite.covers_of_zero_iff (x := Finite.zero f roomy.ordered negative) rfl nonneg).mpr (not_lt.mp small)
    have same := eq_of_ofRatio roomy.toRegular denominator covers rounded
    exact some (congrArg Finite.mantissa same).symm
  · rintro ⟨large, x, rounded⟩
    refine ⟨x, rounded, fun none => ?_⟩
    have covers := ((ofRatio_eq_finite_iff roomy.toRegular denominator).mp rounded).2
    exact absurd large (not_lt.mpr ((Finite.covers_of_zero_iff none nonneg).mp covers))

theorem ofDecimal_nonzero_iff (roomy : f.Roomy) (reached : f.Reached) :
    (∃ x, ofDecimal f negative c e = .finite x ∧ x.mantissa ≠ 0) ↔
      f.vanishing < decimalValue c e ∧ decimalValue c e < f.overflow := by
  have zero : ∀ x, ofRatio f negative 0 1 = .finite x → x.mantissa = 0 := fun x rounded => (ofRatio_zero.mp rounded).2
  rcases Nat.eq_zero_or_pos c with rfl | positive
  · rw [ofDecimal_zero]
    have nothing : decimalValue 0 e = 0 := by simp [decimalValue]
    rw [nothing]
    refine iff_of_false ?_ fun inside => lt_asymm inside.1 f.vanishing_pos
    rintro ⟨x, rounded, some⟩
    exact some (zero x rounded)
  · rcases ofDecimal_cases f negative positive e with ⟨above, infinite⟩ | ⟨below, none⟩ | ratio
    · refine iff_of_false ?_ fun inside => lt_asymm inside.2 ((Format.overflow_le reached).trans above)
      rintro ⟨x, rounded, -⟩
      rw [infinite] at rounded
      cases rounded
    · refine iff_of_false ?_ fun inside => lt_asymm inside.1 (below.trans_le reached.floor)
      rintro ⟨x, rounded, some⟩
      rw [none] at rounded
      exact some (zero x rounded)
    · rw [ratio, decimalValue_eq_ratio]
      exact ofRatio_nonzero_iff roomy (Nat.pow_pos (by decide))

end Binary
end FieldGateway
