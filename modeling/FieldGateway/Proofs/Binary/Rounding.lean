import FieldGateway.Binary.Rounding
import FieldGateway.Proofs.Binary.Nearest
import Mathlib.Tactic.FieldSimp

-- A fraction is rounded to the one number that covers it, and to an infinity when there is none.
namespace FieldGateway

def Nearest (k : Nat) (r : ℚ) : Prop :=
  if k % 2 = 0 then (k : ℚ) - 1 / 2 ≤ r ∧ r ≤ k + 1 / 2 else (k : ℚ) - 1 / 2 < r ∧ r < k + 1 / 2

theorem Nearest.bounds (nearest : Nearest k r) : (k : ℚ) - 1 / 2 ≤ r ∧ r ≤ k + 1 / 2 := by
  unfold Nearest at nearest
  split at nearest
  · exact nearest
  · exact ⟨nearest.1.le, nearest.2.le⟩

theorem Nearest.le_of_lt {j k : Nat} (nearest : Nearest k r) (below : r < j) : k ≤ j := by
  have bound := nearest.bounds.1
  have : (k : ℚ) < (j + 1 : Nat) := by
    push_cast
    linarith
  have := Nat.cast_lt.mp this
  omega

theorem Nearest.ge_of_ge {j k : Nat} (nearest : Nearest k r) (above : (j : ℚ) ≤ r) : j ≤ k := by
  have bound := nearest.bounds.2
  have : (j : ℚ) < (k + 1 : Nat) := by
    push_cast
    linarith
  have := Nat.cast_lt.mp this
  omega

theorem roundEven_nearest (n : Nat) (positive : 0 < d) : Nearest (roundEven n d) ((n : ℚ) / d) := by
  have divisor : (0 : ℚ) < d := by exact_mod_cast positive
  have parts : (n : ℚ) / d = (n / d : Nat) + (n % d : Nat) / d := by
    rw [add_div' _ _ _ (ne_of_gt divisor)]
    congr 1
    exact_mod_cast (Nat.div_add_mod' n d).symm
  have bound : ((n % d : Nat) : ℚ) / d < 1 := by
    rw [div_lt_one divisor]
    exact_mod_cast Nat.mod_lt n positive
  have nonneg : (0 : ℚ) ≤ ((n % d : Nat) : ℚ) / d := by positivity
  have half : 2 * (n % d) < d ↔ ((n % d : Nat) : ℚ) / d < 1 / 2 := by
    rw [div_lt_iff₀ divisor, ← Nat.cast_lt (α := ℚ)]
    push_cast
    constructor <;> intro h <;> linarith
  have tie : 2 * (n % d) = d ↔ ((n % d : Nat) : ℚ) / d = 1 / 2 := by
    rw [div_eq_iff (ne_of_gt divisor), ← Nat.cast_inj (R := ℚ)]
    push_cast
    constructor <;> intro h <;> linarith
  unfold roundEven
  simp only [half, tie]
  rw [parts]
  generalize ((n % d : Nat) : ℚ) / d = rest at *
  unfold Nearest
  split
  · rename_i down
    split
    · constructor <;> rcases down with less | ⟨equal, _⟩ <;> linarith
    · rename_i odd
      have less : rest < 1 / 2 := by
        rcases down with less | ⟨_, even⟩
        · exact less
        · exact absurd even odd
      constructor <;> linarith
  · rename_i up
    rw [not_or, not_lt, not_and] at up
    push_cast
    split
    · constructor <;> linarith [up.1]
    · rename_i odd
      have more : 1 / 2 < rest := by
        rcases up.1.eq_or_lt with equal | more
        · exact absurd (up.2 equal.symm) (by omega)
        · exact more
      constructor <;> linarith

theorem Nearest.unique (first : Nearest j r) (second : Nearest k r) : j = k := by
  rcases Nat.lt_trichotomy j k with less | equal | greater
  · have step : (j : ℚ) + 1 ≤ k := by exact_mod_cast less
    unfold Nearest at first second
    split at first <;> split at second
    · -- Two even numbers are two apart.
      have gap : (j : ℚ) + 2 ≤ k := by exact_mod_cast (by omega : j + 2 ≤ k)
      linarith [first.2, second.1]
    all_goals linarith [first.2, second.1]
  · exact equal
  · have step : (k : ℚ) + 1 ≤ j := by exact_mod_cast greater
    unfold Nearest at first second
    split at first <;> split at second
    · have gap : (k : ℚ) + 2 ≤ j := by exact_mod_cast (by omega : k + 2 ≤ j)
      linarith [first.1, second.2]
    all_goals linarith [first.1, second.2]

theorem shiftedRatio_eq (n d : Nat) (e : Int) :
    ((shiftedRatio n d e).1 : ℚ) / (shiftedRatio n d e).2 = n / d / 2 ^ e := by
  have power := zpow_eq_fraction 2 e
  simp only [shiftedRatio, Nat.pow_eq]
  push_cast at power ⊢
  rw [power, div_div_eq_mul_div, div_mul_eq_mul_div, div_div]

theorem shiftedRatio_pos (positive : 0 < d) (e : Int) : 0 < (shiftedRatio n d e).2 :=
  Nat.mul_pos positive (Nat.pow_pos (by decide))

namespace Format

theorem log2_bounds {n : Nat} (positive : 0 < n) : ((2 : ℚ) ^ n.log2 ≤ n) ∧ (n : ℚ) < 2 * 2 ^ n.log2 := by
  constructor
  · exact_mod_cast Nat.log2_self_le (ne_of_gt positive)
  · have above := @Nat.lt_log2_self n
    rw [Nat.pow_succ, Nat.mul_comm] at above
    exact_mod_cast above

theorem shiftedRatio_div_lt_iff (denominator : 0 < d) (e : Int) (k : Nat) :
    (shiftedRatio n d e).1 / (shiftedRatio n d e).2 < k ↔ (n : ℚ) / d < k * 2 ^ e := by
  have positive := shiftedRatio_pos (n := n) denominator e
  have positiveQ : (0 : ℚ) < (shiftedRatio n d e).2 := by exact_mod_cast positive
  have unit : (0 : ℚ) < 2 ^ e := by positivity
  rw [Nat.div_lt_iff_lt_mul positive, ← div_lt_iff₀ unit, ← shiftedRatio_eq, div_lt_iff₀ positiveQ]
  exact_mod_cast Iff.rfl

theorem guess_bounds {n d bits : Nat} (numerator : 0 < n) (denominator : 0 < d)
    (guess : e + bits = (n.log2 : Int) - d.log2) :
    (2 : ℚ) ^ bits * 2 ^ (e - 1) ≤ n / d ∧ (n : ℚ) / d < 2 * 2 ^ bits * 2 ^ e := by
  obtain ⟨lowN, highN⟩ := log2_bounds numerator
  obtain ⟨lowD, highD⟩ := log2_bounds denominator
  have divisor : (0 : ℚ) < d := by exact_mod_cast denominator
  have powN : (0 : ℚ) < 2 ^ n.log2 := by positivity
  have powD : (0 : ℚ) < 2 ^ d.log2 := by positivity
  have scaled : (2 : ℚ) ^ bits * 2 ^ e = 2 ^ n.log2 / 2 ^ d.log2 := by
    rw [← zpow_natCast, ← zpow_natCast, ← zpow_natCast, ← zpow_add₀ (by norm_num), ← zpow_sub₀ (by norm_num),
      ← guess, add_comm]
  constructor
  · have halved : (2 : ℚ) ^ bits * 2 ^ (e - 1) = 2 ^ n.log2 / 2 ^ d.log2 / 2 := by
      rw [← scaled, zpow_sub_one₀ (by norm_num)]
      ring
    rw [halved, div_div, div_le_div_iff₀ (by positivity) divisor]
    nlinarith
  · rw [mul_assoc, scaled, mul_div_assoc', div_lt_div_iff₀ divisor powD]
    nlinarith

theorem position_eq (f : Format) (bits : 1 ≤ f.precision) (numerator : 0 < n) (denominator : 0 < d) :
    ∃ e, f.position n d = max f.least e ∧
      (2 : ℚ) ^ (f.precision - 1) * 2 ^ e ≤ n / d ∧ (n : ℚ) / d < 2 * 2 ^ (f.precision - 1) * 2 ^ e := by
  let guess : Int := (n.log2 : Int) - d.log2 - f.precision + 1
  have same : guess + (f.precision - 1 : Nat) = (n.log2 : Int) - d.log2 := by
    simp only [guess]
    omega
  obtain ⟨low, high⟩ := guess_bounds numerator denominator same
  have position : f.position n d = max f.least
      (if (shiftedRatio n d guess).1 / (shiftedRatio n d guess).2 < 2 ^ (f.precision - 1) then guess - 1
        else guess) := rfl
  by_cases small : (n : ℚ) / d < 2 ^ (f.precision - 1) * 2 ^ guess
  · refine ⟨guess - 1, ?_, low, ?_⟩
    · rw [position, if_pos ((shiftedRatio_div_lt_iff denominator guess _).mpr (by exact_mod_cast small))]
    · calc (n : ℚ) / d < 2 ^ (f.precision - 1) * 2 ^ guess := small
        _ = 2 * 2 ^ (f.precision - 1) * 2 ^ (guess - 1) := by
          rw [zpow_sub_one₀ (by norm_num)]
          ring
  · refine ⟨guess, ?_, not_lt.mp small, high⟩
    rw [position, if_neg]
    intro below
    exact small (by exact_mod_cast (shiftedRatio_div_lt_iff denominator guess _).mp below)

end Format

namespace Binary

variable {f : Format} {x y : Finite f} {negative : Bool} {n d : Nat}

theorem ofParts_eq_finite_iff : ofParts f negative m e = .finite x ↔
    x.negative = negative ∧ x.mantissa = m ∧ x.exponent = e := by
  unfold ofParts
  constructor
  · intro same
    split at same
    · cases same
      exact ⟨rfl, rfl, rfl⟩
    · cases same
  · rintro ⟨rfl, rfl, rfl⟩
    rw [dif_pos x.canonical]

-- The exponent and the mantissa that rounding finds, before a mantissa that is one too large
-- is halved.
theorem ofRatio_parts (regular : f.Regular) (numerator : 0 < n) (denominator : 0 < d) (negative : Bool) :
    ∃ (e : Int) (m : Nat), f.least ≤ e ∧ Nearest m ((n : ℚ) / d / 2 ^ e) ∧
      (e = f.least ∨ (2 : ℚ) ^ (f.precision - 1) * 2 ^ e ≤ n / d) ∧
      (n : ℚ) / d < 2 * 2 ^ (f.precision - 1) * 2 ^ e ∧
      ofRatio f negative n d =
        if m = 2 ^ f.precision then ofParts f negative (2 ^ (f.precision - 1)) (e + 1)
        else ofParts f negative m e := by
  obtain ⟨g, position, low, high⟩ := f.position_eq (by have := regular.precision; omega) numerator denominator
  refine ⟨f.position n d, roundEven (shiftedRatio n d (f.position n d)).1 (shiftedRatio n d (f.position n d)).2,
    ?_, ?_, ?_, ?_, ?_⟩
  · rw [position]
    exact le_max_left _ _
  · rw [← shiftedRatio_eq]
    exact roundEven_nearest _ (shiftedRatio_pos denominator _)
  · rcases le_total g f.least with below | above
    · exact .inl (position.trans (max_eq_left below))
    · refine .inr ?_
      rwa [position, max_eq_right above]
  · refine lt_of_lt_of_le high (mul_le_mul_of_nonneg_left ?_ (by positivity))
    rw [position]
    exact zpow_le_zpow_right₀ (by norm_num) (le_max_right _ _)
  · unfold ofRatio
    rw [if_neg (by omega)]
    rfl

theorem even_power (regular : Format.Regular f) : 2 ^ (f.precision - 1) % 2 = 0 := by
  have bits := regular.precision
  obtain ⟨k, rest⟩ : ∃ k, f.precision - 1 = k + 1 := ⟨f.precision - 2, by omega⟩
  rw [rest, Nat.pow_succ, Nat.mul_mod_left]

theorem nearest_iff_covers (wide : ¬ x.narrow) : Nearest x.mantissa (r / 2 ^ x.exponent) ↔ x.Covers r := by
  have unit : (0 : ℚ) < 2 ^ x.exponent := by positivity
  unfold Nearest Finite.Covers Finite.lower Finite.upper
  simp only [if_neg wide, le_div_iff₀ unit, div_le_iff₀ unit, lt_div_iff₀ unit, div_lt_iff₀ unit]

theorem covers_of_ofRatio (regular : f.Regular) (numerator : 0 < n) (denominator : 0 < d)
    (rounded : ofRatio f negative n d = .finite x) : x.negative = negative ∧ x.Covers ((n : ℚ) / d) := by
  obtain ⟨e, m, least, nearest, low, high, parts⟩ := ofRatio_parts regular numerator denominator negative
  have unit : (0 : ℚ) < 2 ^ e := by positivity
  rw [parts] at rounded
  split at rounded
  · rename_i full
    obtain ⟨sign, mantissa, exponent⟩ := ofParts_eq_finite_iff.mp rounded
    refine ⟨sign, ?_⟩
    have narrow : x.narrow := ⟨mantissa, by omega⟩
    have even := even_power regular
    have bound := nearest.bounds.1
    rw [le_div_iff₀ unit, full, regular.two_pow_precision] at bound
    unfold Finite.Covers Finite.lower Finite.upper
    rw [if_pos (by rw [mantissa, even]), if_pos narrow, mantissa, exponent, zpow_add_one₀ (by norm_num)]
    push_cast at bound ⊢
    constructor <;> nlinarith
  · obtain ⟨sign, rfl, rfl⟩ := ofParts_eq_finite_iff.mp rounded
    refine ⟨sign, ?_⟩
    by_cases narrow : x.narrow
    · -- The fraction is not below the power of two.
      have above : x.magnitude ≤ n / d := by
        rcases low with equal | low
        · exact absurd equal narrow.2
        · unfold Finite.magnitude
          rw [narrow.1]
          exact_mod_cast low
      have below : (n : ℚ) / d ≤ x.upper := by
        have bound := nearest.bounds.2
        rwa [div_le_iff₀ unit] at bound
      unfold Finite.Covers
      rw [if_pos (by rw [narrow.1, even_power regular])]
      exact ⟨x.lower_lt.le.trans above, below⟩
    · exact (nearest_iff_covers narrow).mp nearest

theorem narrow_of_smaller_exponent (covers : x.Covers r) (least : f.least ≤ e)
    (high : r < 2 * 2 ^ (f.precision - 1) * 2 ^ e) (less : e < x.exponent) : x.narrow ∧ e + 1 = x.exponent := by
  have units := two_mul_zpow_le less
  have small : (0 : ℚ) < 2 ^ e := by positivity
  have unit : (0 : ℚ) < 2 ^ x.exponent := by positivity
  have one : (1 : ℚ) ≤ 2 ^ (f.precision - 1) := one_le_pow₀ (by norm_num)
  have full := x.mantissa_full (lt_of_le_of_lt least less)
  have lower := covers.bounds.1
  unfold Finite.lower at lower
  have narrow : x.narrow := by
    by_contra wide
    have different : x.mantissa ≠ 2 ^ (f.precision - 1) := fun equal => wide ⟨equal, by omega⟩
    have more : (2 : ℚ) ^ (f.precision - 1) + 1 ≤ x.mantissa := by
      exact_mod_cast (by omega : 2 ^ (f.precision - 1) + 1 ≤ x.mantissa)
    rw [if_neg wide] at lower
    nlinarith
  refine ⟨narrow, ?_⟩
  rw [if_pos narrow, narrow.1] at lower
  push_cast at lower
  -- With two exponents or more between them the fraction would be too small.
  by_contra apart
  have further := two_mul_zpow_le (show e + 1 < x.exponent by omega)
  rw [zpow_add_one₀ (by norm_num)] at further
  nlinarith

theorem ofRatio_of_covers (regular : f.Regular) (numerator : 0 < n) (denominator : 0 < d)
    (sign : x.negative = negative) (covers : x.Covers ((n : ℚ) / d)) : ofRatio f negative n d = .finite x := by
  obtain ⟨e, m, least, nearest, low, high, parts⟩ := ofRatio_parts regular numerator denominator negative
  have unit : (0 : ℚ) < 2 ^ x.exponent := by positivity
  have exponent : e ≤ x.exponent := Finite.le_exponent regular low (covers.bounds.2.trans_lt x.upper_lt_succ)
  rw [parts]
  rcases exponent.eq_or_lt with rfl | less
  · -- The same exponent, so the mantissa is the nearest natural number.
    have same : m = x.mantissa := by
      by_cases narrow : x.narrow
      · refine nearest.unique ?_
        rcases low with equal | low
        · exact absurd equal narrow.2
        · have upper := covers.bounds.2
          unfold Finite.upper at upper
          unfold Nearest
          rw [if_pos (by rw [narrow.1, even_power regular]), div_le_iff₀ unit, le_div_iff₀ unit]
          rw [narrow.1] at upper ⊢
          push_cast at upper ⊢
          exact ⟨by nlinarith, upper⟩
      · exact nearest.unique ((nearest_iff_covers narrow).mpr covers)
    rw [if_neg (by have := x.mantissa_lt; omega), same]
    exact ofParts_eq_finite_iff.mpr ⟨sign, rfl, rfl⟩
  · -- The fraction is right below a power of two, to which the mantissa is rounded up.
    obtain ⟨narrow, next⟩ := narrow_of_smaller_exponent covers least high less
    have lower := covers.bounds.1
    unfold Finite.lower at lower
    rw [if_pos narrow, narrow.1, ← next, zpow_add_one₀ (by norm_num)] at lower
    push_cast at lower
    have found : m = 2 ^ f.precision := by
      refine nearest.unique ?_
      have small : (0 : ℚ) < 2 ^ e := by positivity
      have even : 2 ^ f.precision % 2 = 0 := by rw [regular.two_pow_precision, Nat.mul_mod_right]
      unfold Nearest
      rw [if_pos even, regular.two_pow_precision, div_le_iff₀ small, le_div_iff₀ small]
      push_cast
      constructor <;> nlinarith
    rw [if_pos found, next]
    exact ofParts_eq_finite_iff.mpr ⟨sign, narrow.1, rfl⟩

theorem ofRatio_zero : ofRatio f negative 0 d = .finite x ↔ x.negative = negative ∧ x.mantissa = 0 := by
  unfold ofRatio
  rw [if_pos rfl, ofParts_eq_finite_iff]
  exact and_congr_right fun _ => ⟨And.left, fun zero => ⟨zero, Finite.exponent_of_zero zero⟩⟩

theorem covers_zero_iff : x.Covers 0 ↔ x.mantissa = 0 := by
  have unit : (0 : ℚ) < 2 ^ x.exponent := by positivity
  constructor
  · intro covers
    by_contra more
    have one : (1 : ℚ) ≤ x.mantissa := by exact_mod_cast Nat.one_le_iff_ne_zero.mpr more
    have lower := covers.bounds.1
    unfold Finite.lower at lower
    split at lower <;> nlinarith
  · intro zero
    have narrowless : ¬ x.narrow := fun narrow => narrow.2 (Finite.exponent_of_zero zero)
    apply Finite.covers_of_lt
    · unfold Finite.lower
      rw [if_neg narrowless, zero]
      push_cast
      nlinarith
    · unfold Finite.upper
      rw [zero]
      push_cast
      nlinarith

theorem ofRatio_eq_finite_iff (regular : f.Regular) (denominator : 0 < d) :
    ofRatio f negative n d = .finite x ↔ x.negative = negative ∧ x.Covers ((n : ℚ) / d) := by
  rcases Nat.eq_zero_or_pos n with rfl | numerator
  · simp only [ofRatio_zero, Nat.cast_zero, zero_div, covers_zero_iff]
  · exact ⟨covers_of_ofRatio regular numerator denominator,
      fun ⟨sign, covers⟩ => ofRatio_of_covers regular numerator denominator sign covers⟩

theorem eq_of_ofRatio (regular : f.Regular) (denominator : 0 < d) (covers : x.Covers ((n : ℚ) / d))
    (rounded : ofRatio f x.negative n d = .finite y) : x = y := by
  have found := (ofRatio_eq_finite_iff regular denominator).mpr ⟨rfl, covers⟩
  exact finite.inj (found.symm.trans rounded)

theorem ofParts_of_canonical (fits : f.Canonical m e) : ofParts f negative m e = .finite ⟨negative, m, e, fits⟩ := by
  unfold ofParts
  rw [dif_pos fits]

theorem ofRatio_isFinite (regular : f.Regular) (negative : Bool) (numerator : 0 < n) (denominator : 0 < d)
    (within : (n : ℚ) / d ≤ x.magnitude) : ∃ y, ofRatio f negative n d = .finite y := by
  obtain ⟨e, m, least, nearest, low, high, parts⟩ := ofRatio_parts regular numerator denominator negative
  have unit : (0 : ℚ) < 2 ^ e := by positivity
  have double := regular.two_pow_precision
  have greatest := x.canonical.2.2.1
  have exponent : e ≤ x.exponent := Finite.le_exponent regular low (within.trans_lt x.magnitude_lt_succ)
  have ceiling : m ≤ 2 * 2 ^ (f.precision - 1) := by
    refine nearest.le_of_lt ?_
    rw [div_lt_iff₀ unit]
    exact_mod_cast high
  rw [parts]
  split
  · -- A mantissa that is one too large takes the next exponent, which the number still has.
    rename_i full
    have room : e + 1 ≤ f.greatest := by
      by_contra above
      have same : x.exponent = e := by omega
      have bound := nearest.bounds.1
      have bounded := x.mantissa_succ_le regular
      rw [le_div_iff₀ unit, full, double] at bound
      unfold Finite.magnitude at within
      rw [same] at within
      push_cast at bound
      nlinarith
    exact ⟨_, ofParts_of_canonical ⟨Nat.pow_lt_pow_right (by decide) (by have := regular.precision; omega),
      by omega, room, .inl (Nat.le_refl _)⟩⟩
  · rename_i below
    have large : 2 ^ (f.precision - 1) ≤ m ∨ e = f.least := by
      rcases low with equal | low
      · exact .inr equal
      · refine .inl (nearest.ge_of_ge ?_)
        rw [le_div_iff₀ unit]
        exact_mod_cast low
    rw [← double] at ceiling
    exact ⟨_, ofParts_of_canonical ⟨lt_of_le_of_ne ceiling below, least, by omega, large⟩⟩

def decimalValue (coefficient : Nat) (exponent : Int) : ℚ := coefficient * 10 ^ exponent

theorem decimalValue_mul_pow (c k : Nat) (e : Int) : decimalValue (c * 10 ^ k) e = decimalValue c (k + e) := by
  unfold decimalValue
  rw [zpow_add₀ (by norm_num), zpow_natCast]
  push_cast
  ring

theorem decimalValue_lt (c : Nat) (e : Int) : decimalValue c e < 10 ^ (e + (c.log2 / 3 : Nat) + 1) := by
  have above : c < 2 ^ (c.log2 + 1) := Nat.lt_log2_self
  have bound : c < 10 ^ (c.log2 / 3 + 1) := by
    calc c < 2 ^ (c.log2 + 1) := above
      _ ≤ 2 ^ (3 * (c.log2 / 3 + 1)) := Nat.pow_le_pow_right (by decide) (by omega)
      _ = 8 ^ (c.log2 / 3 + 1) := by rw [Nat.pow_mul]
      _ ≤ 10 ^ (c.log2 / 3 + 1) := Nat.pow_le_pow_left (by decide) _
  have power : (0 : ℚ) < 10 ^ e := by positivity
  have split : (10 : ℚ) ^ (e + (c.log2 / 3 : Nat) + 1) = ((10 ^ (c.log2 / 3 + 1) : Nat) : ℚ) * 10 ^ e := by
    rw [add_assoc, zpow_add₀ (by norm_num), mul_comm]
    push_cast
    rw [← zpow_natCast]
    push_cast
    rfl
  rw [decimalValue, split]
  exact mul_lt_mul_of_pos_right (by exact_mod_cast bound) power

theorem le_decimalValue (positive : 0 < c) (e : Int) : (10 : ℚ) ^ (e + (c.log2 / 4 : Nat)) ≤ decimalValue c e := by
  have below : 2 ^ c.log2 ≤ c := Nat.log2_self_le (ne_of_gt positive)
  have bound : 10 ^ (c.log2 / 4) ≤ c := by
    calc 10 ^ (c.log2 / 4) ≤ 16 ^ (c.log2 / 4) := Nat.pow_le_pow_left (by decide) _
      _ = 2 ^ (4 * (c.log2 / 4)) := by rw [Nat.pow_mul]
      _ ≤ 2 ^ c.log2 := Nat.pow_le_pow_right (by decide) (by omega)
      _ ≤ c := below
  have power : (0 : ℚ) < 10 ^ e := by positivity
  rw [decimalValue, zpow_add₀ (by norm_num), mul_comm, zpow_natCast]
  exact mul_le_mul_of_nonneg_right (by exact_mod_cast bound) power.le

theorem decimalValue_eq_ratio (c : Nat) (e : Int) :
    decimalValue c e = ((c * Nat.pow 10 e.toNat : Nat) : ℚ) / (Nat.pow 10 (-e).toNat : Nat) := by
  have power := zpow_eq_fraction 10 e
  rw [decimalValue]
  push_cast [Nat.pow_eq] at power ⊢
  rw [power, mul_div_assoc]

-- A decimal is rounded as a fraction, or so far away from all finite numbers that this is not done.
theorem ofDecimal_cases (f : Format) (negative : Bool) (positive : 0 < c) (e : Int) :
    (10 ^ decimalCeiling < decimalValue c e ∧ ofDecimal f negative c e = .infinite negative) ∨
    (decimalValue c e < 10 ^ decimalFloor ∧ ofDecimal f negative c e = ofRatio f negative 0 1) ∨
    ofDecimal f negative c e = ofRatio f negative (c * Nat.pow 10 e.toNat) (Nat.pow 10 (-e).toNat) := by
  unfold ofDecimal
  simp only [if_neg (ne_of_gt positive)]
  split
  · rename_i above
    refine .inl ⟨lt_of_lt_of_le ?_ (le_decimalValue positive e), rfl⟩
    exact zpow_lt_zpow_right₀ (by norm_num) above
  · split
    · rename_i below
      refine .inr (.inl ⟨lt_of_lt_of_le (decimalValue_lt c e) ?_, rfl⟩)
      exact zpow_le_zpow_right₀ (by norm_num) (by push_cast; omega)
    · exact .inr (.inr rfl)

theorem ofDecimal_eq_ofRatio (positive : 0 < c) (floor : (10 : ℚ) ^ decimalFloor ≤ decimalValue c e)
    (ceiling : decimalValue c e ≤ 10 ^ decimalCeiling) :
    ofDecimal f negative c e = ofRatio f negative (c * Nat.pow 10 e.toNat) (Nat.pow 10 (-e).toNat) := by
  rcases ofDecimal_cases f negative positive e with ⟨above, -⟩ | ⟨below, -⟩ | ratio
  · exact absurd ceiling (not_le.mpr above)
  · exact absurd floor (not_le.mpr below)
  · exact ratio

theorem ofDecimal_of_covers (regular : f.Regular) (positive : 0 < c) (sign : x.negative = negative)
    (covers : x.Covers (decimalValue c e)) (floor : (10 : ℚ) ^ decimalFloor ≤ decimalValue c e)
    (ceiling : decimalValue c e ≤ 10 ^ decimalCeiling) : ofDecimal f negative c e = .finite x := by
  rw [ofDecimal_eq_ofRatio positive floor ceiling]
  rw [decimalValue_eq_ratio] at covers
  exact (ofRatio_eq_finite_iff regular (Nat.pow_pos (by decide))).mpr ⟨sign, covers⟩

theorem ofDecimal_zero : ofDecimal f negative 0 e = ofRatio f negative 0 1 := rfl

theorem ofDecimal_isFinite (regular : f.Regular) (positive : 0 < c) (within : decimalValue c e ≤ x.magnitude)
    (floor : (10 : ℚ) ^ decimalFloor ≤ decimalValue c e) (ceiling : decimalValue c e ≤ 10 ^ decimalCeiling) :
    ∃ y, ofDecimal f negative c e = .finite y ∧ y.negative = negative ∧ y.Covers (decimalValue c e) := by
  rw [ofDecimal_eq_ofRatio positive floor ceiling]
  rw [decimalValue_eq_ratio] at within ⊢
  have denominator : 0 < Nat.pow 10 (-e).toNat := Nat.pow_pos (by decide)
  obtain ⟨y, rounded⟩ := ofRatio_isFinite regular negative
    (Nat.mul_pos positive (Nat.pow_pos (by decide))) denominator within
  exact ⟨y, rounded, (ofRatio_eq_finite_iff regular denominator).mp rounded⟩

end Binary
end FieldGateway
