import FieldGateway.Proofs.Binary.Rounding

-- Whole parts of doubles. Rounding a large integer to a double passes over no power of two,
-- and only a few integers next to one are rounded to it.
namespace FieldGateway

namespace Finite

variable {f : Format} {x y z : Finite f} {r : ℚ}

def whole (x : Finite f) : Nat := x.numerator / x.denominator

theorem truncated_eq (x : Finite f) : x.truncated = if x.negative then -(x.whole : Int) else x.whole := rfl

theorem le_whole_iff (x : Finite f) (k : Nat) : k ≤ x.whole ↔ (k : ℚ) ≤ x.magnitude := by
  have divisor : (0 : ℚ) < x.denominator := by exact_mod_cast x.denominator_pos
  rw [whole, Nat.le_div_iff_mul_le x.denominator_pos, magnitude_eq_ratio, le_div_iff₀ divisor]
  exact_mod_cast Iff.rfl

theorem Covers.unique {c : Nat} (first : x.Covers c) (second : y.Covers c) (regular : f.Regular)
    (sign : x.negative = y.negative) : x = y := by
  have ratio : (c : ℚ) = (c : Nat) / (1 : Nat) := by simp
  rw [ratio] at first second
  refine Binary.eq_of_ofRatio regular Nat.one_pos first ?_
  exact (Binary.ofRatio_eq_finite_iff regular Nat.one_pos).mpr ⟨sign.symm, second⟩

def power (negative : Bool) (k : Nat) (small : k ≤ 971) : Finite .double :=
  ⟨negative, 2 ^ 52, k, by decide, by simp only [Format.double]; omega, by simp only [Format.double]; omega,
    .inl (Nat.le_refl _)⟩

theorem power_magnitude (negative : Bool) (small : k ≤ 971) : (power negative k small).magnitude = (2 ^ (52 + k) : Nat) := by
  unfold power magnitude
  rw [zpow_natCast, Nat.pow_add]
  push_cast
  rfl

theorem power_whole (negative : Bool) (small : k ≤ 971) : (power negative k small).whole = 2 ^ (52 + k) := by
  have none : (-(k : Int)).toNat = 0 := by omega
  simp only [whole, numerator, denominator, power, none, Int.toNat_natCast, Nat.pow_eq, Nat.pow_zero, Nat.div_one,
    Nat.pow_add]

theorem Covers.power_le {c : Nat} {x : Finite .double} (covers : x.Covers c) (small : k ≤ 971) (large : 2 ^ (52 + k) ≤ c) :
    2 ^ (52 + k) ≤ x.whole := by
  have below : (power false k small).magnitude ≤ c := by
    rw [power_magnitude]
    exact_mod_cast large
  have bound := covers.le_of_le Format.double_regular below
  rw [power_magnitude] at bound
  exact (x.le_whole_iff _).mpr bound

-- The integers next to the 63rd power of two that are rounded to it. From there on doubles are
-- 2048 apart.
theorem power_upper (negative : Bool) : (power negative 11 (by decide)).upper = (2 ^ 63 + 1024 : Nat) := by
  norm_num [power, upper]

theorem power_covers {c : Nat} (negative : Bool) (large : 2 ^ 63 ≤ c) (near : c ≤ 2 ^ 63 + 1024) :
    (power negative 11 (by decide)).Covers c := by
  have even : (power negative 11 (by decide)).mantissa % 2 = 0 := by norm_num [power]
  have above : (power negative 11 (by decide)).magnitude ≤ c := by
    rw [power_magnitude]
    exact_mod_cast large
  unfold Covers
  rw [if_pos even, power_upper]
  exact ⟨(lower_lt _).le.trans above, by exact_mod_cast near⟩

theorem Covers.whole_eq_iff {c : Nat} {x : Finite .double} (covers : x.Covers c) (large : 2 ^ 63 ≤ c) :
    x.whole = 2 ^ 63 ↔ c ≤ 2 ^ 63 + 1024 := by
  constructor
  · intro equal
    by_contra beyond
    let least := power x.negative 11 (by decide)
    have magnitude : least.magnitude = (2 ^ 63 : Nat) := power_magnitude _ _
    have above : least.magnitude ≤ c := by
      rw [magnitude]
      exact_mod_cast large
    have different : least.magnitude ≠ x.magnitude := by
      intro same
      have equal : least = x := magnitude_inj Format.double_regular rfl same
      have bound := covers.bounds.2
      rw [← equal, power_upper, Nat.cast_le] at bound
      exact beyond bound
    have less := lt_of_le_of_ne (covers.le_of_le Format.double_regular above) different
    have next := succ_le_magnitude Format.double_regular less
    have step : ((least.mantissa : ℚ) + 1) * 2 ^ least.exponent = (2 ^ 63 + 2048 : Nat) := by
      norm_num [least, power]
    rw [step, ← le_whole_iff, equal] at next
    exact absurd next (by decide)
  · intro near
    rw [covers.unique (power_covers x.negative large near) Format.double_regular rfl]
    exact power_whole _ _

end Finite

namespace Binary

variable {f : Format} {y : Finite f}

theorem covers_of_ofDecimal (regular : f.Regular) (read : ofDecimal f negative c 0 = .finite y) :
    y.negative = negative ∧ y.Covers c := by
  have ratio : (c : ℚ) = (c : Nat) / (1 : Nat) := by simp
  rw [ratio, ← ofRatio_eq_finite_iff regular Nat.one_pos, ← read]
  unfold ofDecimal at read ⊢
  split
  · rename_i zero
    rw [zero]
  · rename_i nonzero
    rw [if_neg nonzero] at read
    split at read
    · cases read
    · rename_i notAbove
      have leading : ¬ (0 : Int) + c.log2 / 3 + 1 < decimalFloor := by
        simp only [decimalFloor]
        omega
      simp only [if_neg notAbove, if_neg leading]
      simp

theorem ofDecimal_near {c : Nat} (negative : Bool) (large : 2 ^ 63 ≤ c) (near : c ≤ 2 ^ 63 + 1024) :
    ofDecimal .double negative c 0 = .finite (Finite.power negative 11 (by decide)) := by
  have meaning : decimalValue c 0 = c := by simp [decimalValue]
  have bounds : (1 : ℚ) ≤ c ∧ (c : ℚ) ≤ 10 ^ 50 := by
    constructor
    · exact_mod_cast (by omega : 1 ≤ c)
    · exact_mod_cast (by omega : c ≤ 10 ^ 50)
  refine ofDecimal_of_covers Format.double_regular (by omega) rfl ?_ ?_ ?_
  · rw [meaning]
    exact Finite.power_covers negative large near
  · rw [meaning]
    exact (zpow_le_one_of_nonpos₀ (by norm_num) (by decide)).trans bounds.1
  · rw [meaning]
    refine bounds.2.trans ?_
    rw [← zpow_natCast]
    exact zpow_le_zpow_right₀ (by norm_num) (by decide)

end Binary
end FieldGateway
