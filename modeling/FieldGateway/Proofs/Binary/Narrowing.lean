import FieldGateway.Proofs.Binary.Shortest
import Mathlib.Data.Nat.GCD.Basic

-- The digits of a single are sometimes read as a double that is then narrowed to a single.
-- Rounding twice only goes wrong when the double is exactly halfway between two singles and the
-- digits are not. A search through all exponents shows that this happens to one number.
namespace FieldGateway

open Binary (decimalValue)

section Halfway

variable {f : Format} {y : Finite .single} {x : Finite .double} {r : ℚ}

theorem Finite.exists_double (n : Nat) (bits : n < 2 ^ 53) (k : Int) (low : -1074 ≤ k) (high : k ≤ 971) :
    ∃ z : Finite .double, z.magnitude = n * 2 ^ k := by
  rcases Nat.eq_zero_or_pos n with rfl | positive
  · exact ⟨⟨false, 0, -1074, by decide⟩, by simp [magnitude]⟩
  · -- Shifted to the left until the mantissa is full or the exponent is the smallest.
    let shift : Nat := min (52 - n.log2) (k + 1074).toNat
    have floor : 2 ^ n.log2 ≤ n := Nat.log2_self_le (ne_of_gt positive)
    have ceiling : n < 2 ^ (n.log2 + 1) := Nat.lt_log2_self
    have top : n.log2 ≤ 52 := by
      have := (Nat.pow_lt_pow_iff_right (by decide : 1 < 2)).mp (Nat.lt_of_le_of_lt floor bits)
      omega
    have fits : n * 2 ^ shift < 2 ^ 53 := by
      calc n * 2 ^ shift < 2 ^ (n.log2 + 1) * 2 ^ shift := Nat.mul_lt_mul_of_pos_right ceiling (Nat.pow_pos (by decide))
        _ = 2 ^ (n.log2 + 1 + shift) := (Nat.pow_add ..).symm
        _ ≤ 2 ^ 53 := Nat.pow_le_pow_right (by decide) (by omega)
    have canonical : Format.double.Canonical (n * 2 ^ shift) (k - shift) := by
      refine ⟨fits, ?_, ?_, ?_⟩
      · simp only [Format.double]
        omega
      · simp only [Format.double]
        omega
      · by_cases full : shift = 52 - n.log2
        · left
          calc 2 ^ 52 = 2 ^ (n.log2 + shift) := by congr 1; omega
            _ = 2 ^ n.log2 * 2 ^ shift := Nat.pow_add ..
            _ ≤ n * 2 ^ shift := Nat.mul_le_mul_right _ floor
        · right
          simp only [Format.double]
          omega
    refine ⟨⟨false, n * 2 ^ shift, k - shift, canonical⟩, ?_⟩
    unfold magnitude
    rw [zpow_sub₀ (by norm_num), zpow_natCast]
    push_cast
    field_simp

theorem Finite.single_bounds (y : Finite .single) : y.mantissa < 2 ^ 24 ∧ -149 ≤ y.exponent ∧ y.exponent ≤ 104 :=
  ⟨y.canonical.1, y.canonical.2.1, y.canonical.2.2.1⟩

theorem Finite.exists_upper (y : Finite .single) : ∃ z : Finite .double, z.magnitude = y.upper := by
  obtain ⟨mantissa, low, high⟩ := y.single_bounds
  obtain ⟨z, same⟩ := exists_double (2 * y.mantissa + 1) (by omega) (y.exponent - 1) (by omega) (by omega)
  refine ⟨z, same.trans ?_⟩
  unfold upper
  rw [zpow_sub_one₀ (by norm_num)]
  push_cast
  ring

theorem Finite.exists_lower (nonzero : y.mantissa ≠ 0) : ∃ z : Finite .double, z.magnitude = y.lower := by
  obtain ⟨mantissa, low, high⟩ := y.single_bounds
  obtain ⟨z, same⟩ := exists_double y.interval.low (by simp only [interval]; split <;> omega) (y.exponent - 2)
    (by omega) (by omega)
  refine ⟨z, same.trans ?_⟩
  rw [← interval_low nonzero, zpow_sub₀ (by norm_num)]
  ring

-- The ends of the interval of a single are doubles, so the first rounding stays between them.
theorem Finite.Covers.squeeze (nonzero : y.mantissa ≠ 0) (single : y.Covers r) (double : x.Covers r) :
    y.lower ≤ x.magnitude ∧ x.magnitude ≤ y.upper := by
  obtain ⟨bottom, bottomSame⟩ := Finite.exists_lower nonzero
  obtain ⟨top, topSame⟩ := y.exists_upper
  constructor
  · rw [← bottomSame]
    exact double.le_of_le Format.double_regular (bottomSame ▸ single.bounds.1)
  · rw [← topSame]
    exact double.ge_of_ge Format.double_regular (topSame ▸ single.bounds.2)

theorem Finite.covers_of_even (even : y.mantissa % 2 = 0) (bounds : y.lower ≤ r ∧ r ≤ y.upper) : y.Covers r := by
  unfold Covers
  rwa [if_pos even]

theorem Finite.wide_of_odd (odd : y.mantissa % 2 = 1) : ¬ y.narrow := by
  rintro ⟨full, _⟩
  rw [full] at odd
  exact absurd odd (by decide)

theorem Finite.exponent_of_half (n : Nat) (bits : n < 2 ^ 25) (low : -149 ≤ q) (half : x.magnitude = n * 2 ^ (q - 1)) :
    x.exponent ≤ q - 29 := by
  by_contra above
  have least : Format.double.least < x.exponent := by
    simp only [Format.double]
    omega
  have full : (2 : ℚ) ^ 52 ≤ x.mantissa := by exact_mod_cast x.mantissa_full least
  have units : (2 : ℚ) ^ (q - 28) ≤ 2 ^ x.exponent := zpow_le_zpow_right₀ (by norm_num) (by omega)
  have small : (n : ℚ) < 2 ^ 25 := by exact_mod_cast bits
  have unit : (0 : ℚ) < 2 ^ q := by positivity
  have shifted : (2 : ℚ) ^ (q - 28) = 2 ^ q / 2 ^ 28 := by
    rw [zpow_sub₀ (by norm_num)]
    norm_num
  rw [shifted] at units
  unfold magnitude at half
  rw [zpow_sub_one₀ (by norm_num)] at half
  have more : (2 : ℚ) ^ 52 * (2 ^ q / 2 ^ 28) ≤ x.mantissa * 2 ^ x.exponent :=
    mul_le_mul full units (by positivity) (by positivity)
  nlinarith

end Halfway

-- The search for decimals that come very close to a middle between two singles. With `q` the
-- exponent of the singles, a decimal `p * 10 ^ coarsestGrid q` and a middle `n * 2 ^ (q - 1)`
-- are `p * a` and `n * b` in a common unit, for two natural numbers `a` and `b`.
namespace Halfway

def coarsestGrid (q : Int) : Int := -(-q * 30103 / 100000)

def gridStep (q : Int) : Nat := Nat.pow 10 (coarsestGrid q).toNat * Nat.pow 2 (1 - q).toNat
def halfStep (q : Int) : Nat := Nat.pow 10 (-coarsestGrid q).toNat * Nat.pow 2 (q - 1).toNat

def distance (m n : Nat) : Nat := (m - n) + (n - m)

-- `k * a` and `j * b` are so close, and `k` is so small, that every other pair this close is
-- a multiple of this one.
def Dominates (a b k j : Nat) : Prop := k * b + 2 ^ 53 * distance (k * a) (j * b) < 2 ^ 29 * b

instance (a b k j : Nat) : Decidable (Dominates a b k j) := inferInstanceAs (Decidable (_ < _))

-- Such a pair is found among the best approximations `j / k` of `a / b`. Here `n / d` is what
-- is left to approximate, and the last two approximations are at hand.
def approximation (a b : Nat) : (steps n d j j' k k' : Nat) → Nat × Nat
  | 0, _, _, j, _, k, _ => (k, j)
  | steps + 1, n, d, j, j', k, k' =>
    let nextJ := n / d * j + j'
    let nextK := n / d * k + k'
    if Dominates a b nextK nextJ then (nextK, nextJ)
    else approximation a b steps d (n % d) nextJ j nextK k

-- Why no multiple of the pair matters: it is exact, all its middles are even, it is not close
-- enough after all, or one of its sides is too large. One pair remains.
def Harmless (q : Int) (a b k j : Nat) : Prop :=
  k * a = j * b ∨ j % 2 = 0 ∨ b < 2 ^ 29 * distance (k * a) (j * b) ∨ 2 ^ 24 ≤ k ∨ 2 ^ 25 ≤ j ∨
    (q = -107 ∧ k = 7038531 ∧ j = 22841339)

instance (q : Int) (a b k j : Nat) : Decidable (Harmless q a b k j) := inferInstanceAs (Decidable (_ ∨ _))

def Settled (q : Int) : Prop :=
  let pair := approximation (gridStep q) (halfStep q) 60 (gridStep q) (halfStep q) 1 0 0 1
  Dominates (gridStep q) (halfStep q) pair.1 pair.2 ∧ Nat.gcd pair.1 pair.2 = 1 ∧
    Harmless q (gridStep q) (halfStep q) pair.1 pair.2 ∧
    2 * halfStep q ≤ gridStep q ∧ 2 ^ 29 * gridStep q < 20 * (2 ^ 29 - 1) * halfStep q

instance (q : Int) : Decidable (Settled q) := inferInstanceAs (Decidable (_ ∧ _))

theorem all_settled : ∀ i < 254, Settled ((i : Nat) - 149 : Int) := by decide +kernel

theorem settled (low : -149 ≤ q) (high : q ≤ 104) : Settled q := by
  have checked := all_settled (q + 149).toNat (by omega)
  have same : (((q + 149).toNat : Nat) - 149 : Int) = q := by omega
  rwa [same] at checked

theorem natCast_distance (m n : Nat) : (distance m n : Int) = |(m : Int) - n| := by
  unfold distance
  rcases Nat.le_total m n with le | le
  · rw [abs_of_nonpos (by omega)]
    omega
  · rw [abs_of_nonneg (by omega)]
    omega

-- A pair that is close in turn lies on the line through a dominating one: otherwise the two
-- would span a parallelogram that is too small for the lattice.
theorem collinear (dominates : Dominates a b k j) (small : p < 2 ^ 24)
    (close : 2 ^ 29 * distance (p * a) (n * b) ≤ b) : j * p = k * n := by
  have dominates : ((k * b + 2 ^ 53 * distance (k * a) (j * b) : Nat) : Int) < (2 ^ 29 * b : Nat) := by
    exact_mod_cast dominates
  have close : ((2 ^ 29 * distance (p * a) (n * b) : Nat) : Int) ≤ b := by exact_mod_cast close
  push_cast [natCast_distance] at dominates close
  have small : (p : Int) < 2 ^ 24 := by exact_mod_cast small
  have area : (b : Int) * (j * p - k * n) = k * (p * a - n * b) - p * (k * a - j * b) := by ring
  have spread : |(b : Int) * (j * p - k * n)| * 2 ^ 29 < 2 ^ 29 * b := by
    calc |(b : Int) * (j * p - k * n)| * 2 ^ 29
        ≤ (|(k : Int) * (p * a - n * b)| + |(p : Int) * (k * a - j * b)|) * 2 ^ 29 := by
          rw [area]
          exact mul_le_mul_of_nonneg_right (abs_sub _ _) (by norm_num)
      _ = k * (2 ^ 29 * |(p : Int) * a - n * b|) + p * 2 ^ 29 * |(k : Int) * a - j * b| := by
          rw [abs_mul, abs_mul, Nat.abs_cast, Nat.abs_cast]
          ring
      _ ≤ k * b + 2 ^ 53 * |(k : Int) * a - j * b| := by
          refine add_le_add (mul_le_mul_of_nonneg_left close (by positivity)) ?_
          refine mul_le_mul_of_nonneg_right ?_ (abs_nonneg _)
          linarith
      _ < 2 ^ 29 * b := dominates
  rw [abs_mul, Nat.abs_cast] at spread
  have positive : (0 : Int) < b := by
    by_contra zero
    have : (b : Int) = 0 := by omega
    simp [this] at spread
  have whole : |(j : Int) * p - k * n| < 1 := by
    by_contra more
    rw [not_lt] at more
    nlinarith
  have zero : (j : Int) * p - k * n = 0 := Int.abs_lt_one_iff.mp whole
  exact_mod_cast sub_eq_zero.mp zero

theorem distance_mul (t m n : Nat) : distance (t * m) (t * n) = t * distance m n := by
  unfold distance
  rw [Nat.mul_add, Nat.mul_sub, Nat.mul_sub]

theorem Dominates.positive (dominates : Dominates a b k j) (coprime : Nat.gcd k j = 1) : 0 < k := by
  rcases Nat.eq_zero_or_pos k with rfl | positive
  · rw [Nat.gcd_zero_left] at coprime
    subst coprime
    simp [Dominates, distance] at dominates
    omega
  · exact positive

theorem multiple_of_dominating (dominates : Dominates a b k j) (coprime : Nat.gcd k j = 1) (line : j * p = k * n) :
    ∃ t, p = t * k ∧ n = t * j := by
  obtain ⟨t, rfl⟩ : k ∣ p := Nat.Coprime.dvd_of_dvd_mul_left coprime ⟨n, line⟩
  refine ⟨t, Nat.mul_comm .., ?_⟩
  have same : k * (t * j) = k * n := by
    rw [← line]
    ring
  exact (Nat.eq_of_mul_eq_mul_left (dominates.positive coprime) same).symm

theorem close_unique (low : -149 ≤ q) (high : q ≤ 104) (small : p < 2 ^ 24) (odd : n % 2 = 1)
    (bounded : n < 2 ^ 25) (different : p * gridStep q ≠ n * halfStep q)
    (close : 2 ^ 29 * distance (p * gridStep q) (n * halfStep q) ≤ halfStep q) :
    q = -107 ∧ p = 7038531 ∧ n = 22841339 := by
  obtain ⟨dominates, coprime, harmless, _, _⟩ := settled low high
  generalize approximation (gridStep q) (halfStep q) 60 (gridStep q) (halfStep q) 1 0 0 1 = pair at *
  obtain ⟨k, j⟩ := pair
  simp only at dominates coprime harmless
  obtain ⟨t, rfl, rfl⟩ := multiple_of_dominating dominates coprime (collinear dominates small close)
  have factors := Nat.odd_mul.mp (Nat.odd_iff.mpr odd)
  have one : 1 ≤ t := factors.1.pos
  rw [Nat.mul_assoc, Nat.mul_assoc] at different close
  rw [distance_mul] at close
  rcases harmless with equal | even | far | wide | tall | found
  · rw [equal] at different
    exact absurd rfl different
  · have oddSide := Nat.odd_iff.mp factors.2
    omega
  · have more := Nat.le_mul_of_pos_left (distance (k * gridStep q) (j * halfStep q)) one
    omega
  · have more : k ≤ t * k := Nat.le_mul_of_pos_left _ one
    omega
  · have more : j ≤ t * j := Nat.le_mul_of_pos_left _ one
    omega
  · -- The pair itself, and no larger multiple of it has so few digits.
    obtain ⟨exponent, digits, side⟩ := found
    have single : t = 1 := by
      have oddFactor := Nat.odd_iff.mp factors.1
      rw [digits] at small
      omega
    rw [single, Nat.one_mul, Nat.one_mul]
    exact ⟨exponent, digits, side⟩

def commonUnit (q : Int) : ℚ := (Nat.pow 10 (-coarsestGrid q).toNat * Nat.pow 2 (1 - q).toNat : Nat)

theorem commonUnit_pos (q : Int) : 0 < commonUnit q := by
  unfold commonUnit
  exact_mod_cast Nat.mul_pos (Nat.pow_pos (by decide)) (Nat.pow_pos (by decide))

theorem gridStep_eq (q : Int) : (gridStep q : ℚ) = 10 ^ coarsestGrid q * commonUnit q := by
  have power := zpow_eq_fraction 10 (coarsestGrid q)
  have divisor : (0 : ℚ) < 10 ^ (-coarsestGrid q).toNat := by positivity
  unfold gridStep commonUnit
  push_cast [Nat.pow_eq] at power ⊢
  rw [power]
  field_simp

theorem halfStep_eq (q : Int) : (halfStep q : ℚ) = 2 ^ (q - 1) * commonUnit q := by
  have power := zpow_eq_fraction 2 (q - 1)
  have divisor : (0 : ℚ) < 2 ^ (1 - q).toNat := by positivity
  rw [neg_sub] at power
  unfold halfStep commonUnit
  push_cast [Nat.pow_eq] at power ⊢
  rw [power]
  field_simp

theorem two_zpow_eq (q : Int) : (2 : ℚ) ^ q = 2 * 2 ^ (q - 1) := by
  rw [zpow_sub_one₀ (by norm_num)]
  ring

theorem unit_le_grid (low : -149 ≤ q) (high : q ≤ 104) : (2 : ℚ) ^ q ≤ 10 ^ coarsestGrid q := by
  have checked : ((2 * halfStep q : Nat) : ℚ) ≤ gridStep q := by exact_mod_cast (settled low high).2.2.2.1
  push_cast at checked
  rw [gridStep_eq, halfStep_eq, ← mul_assoc, ← two_zpow_eq] at checked
  exact le_of_mul_le_mul_right checked (commonUnit_pos q)

theorem grid_lt_unit (low : -149 ≤ q) (high : q ≤ 104) :
    2 ^ 29 * (10 : ℚ) ^ (coarsestGrid q - 1) < (2 ^ 29 - 1) * 2 ^ q := by
  have checked : ((2 ^ 29 * gridStep q : Nat) : ℚ) < (20 * (2 ^ 29 - 1) * halfStep q : Nat) := by
    exact_mod_cast (settled low high).2.2.2.2
  rw [Nat.cast_mul, Nat.cast_mul, gridStep_eq, halfStep_eq, ← mul_assoc, ← mul_assoc] at checked
  have bound := lt_of_mul_lt_mul_right checked (commonUnit_pos q).le
  rw [two_zpow_eq, zpow_sub_one₀ (by norm_num)]
  norm_num at bound ⊢
  linarith

theorem cast_distance (m n : Nat) : (distance m n : ℚ) = |(m : ℚ) - n| := by
  have whole := natCast_distance m n
  exact_mod_cast congrArg (Int.cast : Int → ℚ) whole

theorem distance_eq (q : Int) (p n : Nat) : (distance (p * gridStep q) (n * halfStep q) : ℚ) =
    |decimalValue p (coarsestGrid q) - n * 2 ^ (q - 1)| * commonUnit q := by
  rw [cast_distance, Nat.cast_mul, Nat.cast_mul, gridStep_eq, halfStep_eq, decimalValue,
    ← abs_of_pos (commonUnit_pos q), ← abs_mul, abs_of_pos (commonUnit_pos q)]
  congr 1
  ring

end Halfway

namespace Finite

variable {y : Finite .single} {x : Finite .double}

theorem half_distance (covers : x.Covers r) : |r - x.magnitude| ≤ 1 / 2 * 2 ^ x.exponent := by
  have below := x.half_unit_le
  have above := x.upper_eq
  have bounds := covers.bounds
  rw [abs_le]
  constructor
  · linarith
  · linarith

-- A double that its single does not cover although both cover the same decimal is an end of
-- the single's interval, and the mantissa is odd.
theorem middle_of_uncovered (nonzero : y.mantissa ≠ 0) (single : y.Covers r) (double : x.Covers r)
    (uncovered : ¬ y.Covers x.magnitude) : y.mantissa % 2 = 1 ∧
      ∃ n : Nat, (n = 2 * y.mantissa + 1 ∨ n + 1 = 2 * y.mantissa) ∧ x.magnitude = n * 2 ^ (y.exponent - 1) := by
  have ends := single.squeeze nonzero double
  have odd : y.mantissa % 2 = 1 := by
    by_contra even
    exact uncovered (covers_of_even (by omega) ends)
  refine ⟨odd, ?_⟩
  have lower := lower_eq (wide_of_odd odd)
  have upper := y.upper_eq
  have half := Halfway.two_zpow_eq y.exponent
  rcases ends.1.eq_or_lt with bottom | above
  · refine ⟨2 * y.mantissa - 1, .inr (by omega), ?_⟩
    rw [← bottom, lower, Nat.cast_sub (by omega), magnitude, half]
    push_cast
    ring
  · rcases ends.2.eq_or_lt with top | below
    · refine ⟨2 * y.mantissa + 1, .inl rfl, ?_⟩
      rw [top, upper, magnitude, half]
      push_cast
      ring
    · exact absurd (covers_of_lt above below) uncovered

def Slips (y : Finite .single) : Prop := y.mantissa = 11420669 ∧ y.exponent = -107

instance (y : Finite .single) : Decidable y.Slips := inferInstanceAs (Decidable (_ ∧ _))

theorem middle_distance (side : n = 2 * y.mantissa + 1 ∨ n + 1 = 2 * y.mantissa)
    (middle : x.magnitude = n * 2 ^ (y.exponent - 1)) : |x.magnitude - y.magnitude| = 2 ^ (y.exponent - 1) := by
  have unit : (0 : ℚ) < 2 ^ (y.exponent - 1) := by positivity
  rw [middle, magnitude, Halfway.two_zpow_eq y.exponent]
  rcases side with rfl | below
  · rw [abs_of_nonneg (by push_cast; nlinarith)]
    push_cast
    ring
  · have below : (n : ℚ) + 1 = 2 * y.mantissa := by exact_mod_cast below
    have below : (n : ℚ) = 2 * y.mantissa - 1 := by linarith
    rw [below, abs_of_nonpos (by nlinarith)]
    ring

theorem middle_close {n : Nat} (bits : n < 2 ^ 25) (double : x.Covers r) (middle : x.magnitude = n * 2 ^ (y.exponent - 1)) :
    2 ^ 29 * |r - x.magnitude| ≤ 2 ^ (y.exponent - 1) := by
  have units : (2 : ℚ) ^ x.exponent ≤ 2 ^ (y.exponent - 29) :=
    zpow_le_zpow_right₀ (by norm_num) (exponent_of_half n bits y.single_bounds.2.1 middle)
  rw [zpow_sub₀ (by norm_num)] at units
  have half := Halfway.two_zpow_eq y.exponent
  have distance := half_distance double
  norm_num at units ⊢
  linarith

theorem coarsestGrid_le (apart : |x.magnitude - y.magnitude| = 2 ^ (y.exponent - 1))
    (close : 2 ^ 29 * |r - x.magnitude| ≤ 2 ^ (y.exponent - 1)) (near : 2 * |r - y.magnitude| ≤ 10 ^ g) :
    Halfway.coarsestGrid y.exponent ≤ g := by
  obtain ⟨_, low, high⟩ := y.single_bounds
  have coarse : (2 ^ 29 - 1) * (2 : ℚ) ^ y.exponent ≤ 2 ^ 29 * 10 ^ g := by
    have half := Halfway.two_zpow_eq y.exponent
    have triangle := abs_sub_le x.magnitude r y.magnitude
    rw [apart, abs_sub_comm x.magnitude r] at triangle
    linarith
  have finer := lt_of_mul_lt_mul_left ((Halfway.grid_lt_unit low high).trans_le coarse) (by norm_num)
  have before := (zpow_lt_zpow_iff_right₀ (by norm_num : (1 : ℚ) < 10)).mp finer
  omega

theorem Covers.few_digits (single : y.Covers (decimalValue p (Halfway.coarsestGrid y.exponent))) : p < 2 ^ 24 := by
  obtain ⟨mantissa, low, high⟩ := y.single_bounds
  have unit : (0 : ℚ) < 2 ^ y.exponent := by positivity
  have top : (y.mantissa : ℚ) + 1 ≤ 2 ^ 24 := by exact_mod_cast mantissa
  have ceiling : decimalValue p (Halfway.coarsestGrid y.exponent) < 2 ^ 24 * 10 ^ Halfway.coarsestGrid y.exponent := by
    calc decimalValue p (Halfway.coarsestGrid y.exponent) ≤ y.upper := single.bounds.2
      _ < 2 ^ 24 * 2 ^ y.exponent := mul_lt_mul_of_pos_right (by linarith) unit
      _ ≤ _ := mul_le_mul_of_nonneg_left (Halfway.unit_le_grid low high) (by norm_num)
  have ceiling := lt_of_mul_lt_mul_right ceiling (by positivity)
  exact_mod_cast ceiling

theorem slips_of_uncovered (nonzero : y.mantissa ≠ 0) (taken : y.interval.onGrid? g = some p)
    (double : x.Covers (decimalValue p g)) (uncovered : ¬ y.Covers x.magnitude) : y.Slips := by
  obtain ⟨single, near⟩ := onGrid?_spec nonzero taken
  obtain ⟨odd, n, side, middle⟩ := middle_of_uncovered nonzero single double uncovered
  obtain ⟨mantissa, low, high⟩ := y.single_bounds
  have bounded : n < 2 ^ 25 := by omega
  have close := middle_close bounded double middle
  have grid := coarsestGrid_le (middle_distance side middle) close (near (wide_of_odd odd))
  obtain ⟨k, steps⟩ := Int.le.dest grid
  have same : decimalValue p g = decimalValue (p * 10 ^ k) (Halfway.coarsestGrid y.exponent) := by
    rw [Binary.decimalValue_mul_pow, ← steps, add_comm]
  rw [same] at single close
  have different : p * 10 ^ k * Halfway.gridStep y.exponent ≠ n * Halfway.halfStep y.exponent := by
    intro equal
    have zero := Halfway.distance_eq y.exponent (p * 10 ^ k) n
    rw [equal, Halfway.cast_distance, sub_self, abs_zero, ← middle] at zero
    rcases mul_eq_zero.mp zero.symm with equal | none
    · rw [abs_eq_zero, sub_eq_zero] at equal
      exact uncovered (equal ▸ single)
    · exact absurd none (ne_of_gt (Halfway.commonUnit_pos _))
  have closeSteps : 2 ^ 29 * Halfway.distance (p * 10 ^ k * Halfway.gridStep y.exponent)
      (n * Halfway.halfStep y.exponent) ≤ Halfway.halfStep y.exponent := by
    have scaled := mul_le_mul_of_nonneg_right close (Halfway.commonUnit_pos y.exponent).le
    rw [mul_assoc, middle, ← Halfway.distance_eq, ← Halfway.halfStep_eq] at scaled
    exact_mod_cast scaled
  obtain ⟨exponent, _, rfl⟩ :=
    Halfway.close_unique low high single.few_digits (by omega) bounded different closeSteps
  exact ⟨by omega, exponent⟩

theorem shortest_of_slips (slips : y.Slips) : y.shortest = Scientific.ofGrid 7038531 (-32) := by
  have same : y = ⟨y.negative, 11420669, -107, by decide⟩ := ext_parts rfl slips.1 slips.2
  rw [same]
  cases y.negative
  · decide +kernel
  · decide +kernel

theorem uncovered_of_slips (slips : y.Slips) (double : x.Covers (decimalValue 7038531 (-32))) :
    ¬ y.Covers x.magnitude := by
  have rounded : Binary.ofRatio .double x.negative (7038531 * 10 ^ 0) (10 ^ 32) =
      .finite ⟨x.negative, 22841339 * 2 ^ 28, -136, by decide⟩ := by
    cases x.negative
    · decide +kernel
    · decide +kernel
  rw [Binary.decimalValue_eq_ratio] at double
  have found := Binary.eq_of_ofRatio Format.double_regular (by decide) double rounded
  obtain ⟨_, mantissa, exponent⟩ := (Finite.mk.injEq ..).mp found
  intro covers
  have open' : y.lower < x.magnitude ∧ x.magnitude < y.upper := by
    unfold Covers at covers
    rwa [if_neg (by rw [slips.1]; decide)] at covers
  have top := open'.2
  rw [magnitude, upper, slips.1, slips.2, mantissa, exponent] at top
  norm_num at top

def Largest (y : Finite .single) : Prop := y.mantissa = 16777215 ∧ y.exponent = 104

instance (y : Finite .single) : Decidable y.Largest := inferInstanceAs (Decidable (_ ∧ _))

theorem exceeds_single_iff (x : Finite .double) :
    x.exceeds .single = true ↔ (16777215 : ℚ) * 2 ^ 104 < x.magnitude := by
  have divisor : (0 : ℚ) < x.denominator := by exact_mod_cast x.denominator_pos
  rw [magnitude_eq_ratio, lt_div_iff₀ divisor, exceeds, decide_eq_true_eq, ← Nat.cast_lt (α := ℚ)]
  have top : ((Nat.pow 2 Format.single.precision - 1) * Nat.pow 2 Format.single.greatest.toNat : Nat) =
      16777215 * 2 ^ 104 := rfl
  rw [Nat.cast_mul, top]
  norm_num

theorem shortest_of_largest (largest : y.Largest) : y.shortest = Scientific.ofGrid 34028235 31 := by
  have same : y = ⟨y.negative, 16777215, 104, by decide⟩ := ext_parts rfl largest.1 largest.2
  rw [same]
  cases y.negative
  · decide +kernel
  · decide +kernel

theorem exceeds_of_largest (double : x.Covers (decimalValue 34028235 31)) : x.exceeds .single = true := by
  have rounded : Binary.ofRatio .double x.negative (34028235 * 10 ^ 31) (10 ^ 0) =
      .finite ⟨x.negative, 9007198806847480, 75, by decide⟩ := by
    cases x.negative
    · decide +kernel
    · decide +kernel
  rw [Binary.decimalValue_eq_ratio] at double
  rw [Binary.eq_of_ofRatio Format.double_regular (by decide) double rounded]
  cases x.negative
  · decide +kernel
  · decide +kernel

theorem magnitude_le_largest (y : Finite .single) : y.magnitude ≤ 16777215 * 2 ^ (104 : Int) := by
  obtain ⟨mantissa, _, high⟩ := y.single_bounds
  have bounded : (y.mantissa : ℚ) ≤ 16777215 := by exact_mod_cast (by omega : y.mantissa ≤ 16777215)
  exact mul_le_mul bounded (zpow_le_zpow_right₀ (by norm_num) high) (by positivity) (by norm_num)

theorem within_of_not_largest (smaller : ¬ y.Largest) (nonzero : y.mantissa ≠ 0) (single : y.Covers r)
    (double : x.Covers r) : x.exceeds .single = false := by
  let largest : Finite .single := ⟨y.negative, 16777215, 104, by decide⟩
  have top : largest.magnitude = 16777215 * 2 ^ (104 : Int) := rfl
  have le : y.magnitude ≤ largest.magnitude := y.magnitude_le_largest
  have less : y.magnitude < largest.magnitude := by
    refine lt_of_le_of_ne le fun equal => smaller ?_
    have same : y = largest := magnitude_inj Format.single_regular rfl equal
    exact ⟨congrArg Finite.mantissa same, congrArg Finite.exponent same⟩
  have below := (single.squeeze nonzero double).2.trans_lt (upper_lt Format.single_regular less)
  rw [top] at below
  rw [Bool.eq_false_iff, ne_eq, exceeds_single_iff, not_lt]
  exact_mod_cast below.le

def Misread (y : Finite .single) : Prop := y.Slips ∨ y.Largest

instance (y : Finite .single) : Decidable y.Misread := inferInstanceAs (Decidable (_ ∨ _))

theorem convert_eq_iff (x : Finite .double) (sign : x.negative = y.negative) :
    Binary.convert .single (.finite x) = .finite y ↔ y.Covers x.magnitude := by
  have rounded : Binary.ofRatio .single x.negative x.numerator x.denominator = .finite y ↔ _ :=
    Binary.ofRatio_eq_finite_iff Format.single_regular x.denominator_pos
  rw [← magnitude_eq_ratio] at rounded
  unfold Binary.convert
  rw [rounded]
  exact ⟨And.right, fun covers => ⟨sign.symm, covers⟩⟩

-- What the range check lets through is finite when it has been narrowed.
theorem convert_isFinite {x : Finite .double} (within : x.exceeds .single = false) :
    ∃ y, Binary.convert .single (.finite x) = .finite y := by
  let largest : Finite .single := ⟨x.negative, 16777215, 104, by decide⟩
  have top : largest.magnitude = 16777215 * 2 ^ (104 : Int) := rfl
  rw [Bool.eq_false_iff, ne_eq, exceeds_single_iff, not_lt, magnitude_eq_ratio] at within
  have bounded : (x.numerator : ℚ) / x.denominator ≤ largest.magnitude := by
    rw [top]
    exact_mod_cast within
  show ∃ y, Binary.ofRatio .single x.negative x.numerator x.denominator = .finite y
  rcases Nat.eq_zero_or_pos x.numerator with none | some
  · rw [none]
    exact ⟨⟨x.negative, 0, -149, by decide⟩, Binary.ofRatio_zero.mpr ⟨rfl, rfl⟩⟩
  · exact Binary.ofRatio_isFinite Format.single_regular x.negative some x.denominator_pos bounded

-- Reading the printed digits of a single as a double and narrowing it gives the single back,
-- except for those two numbers and their negatives.
theorem narrowed_iff (nonzero : y.mantissa ≠ 0) (printed : decimalValue c e = y.shortest.value) :
    ∃ x, Binary.ofDecimal .double y.negative c e = .finite x ∧
      (x.exceeds .single = false ∧ Binary.convert .single (.finite x) = .finite y ↔ ¬ y.Misread) := by
  obtain ⟨p, g, taken, shortest⟩ := shortest_eq nonzero (by decide)
  have grid := Scientific.ofGrid_value p g
  rw [← shortest, ← printed] at grid
  have single := (onGrid?_spec nonzero taken).1
  obtain ⟨low, high⟩ := single.extremes nonzero
  obtain ⟨top, topSame⟩ := y.exists_upper
  have within := single.bounds.2
  rw [← topSame] at within
  rw [← grid] at single low high within
  have positive := single.coefficient_pos nonzero
  obtain ⟨x, read, sign, double⟩ := Binary.ofDecimal_isFinite Format.double_regular positive within
    (Format.single_reached.floor.trans low) (high.trans Format.single_reached.ceiling)
  refine ⟨x, read, ?_⟩
  rw [convert_eq_iff x sign]
  constructor
  · rintro ⟨within, covers⟩ (slips | largest)
    · rw [printed, shortest_of_slips slips, Scientific.ofGrid_value] at double
      exact uncovered_of_slips slips double covers
    · rw [printed, shortest_of_largest largest, Scientific.ofGrid_value] at double
      rw [exceeds_of_largest double] at within
      cases within
  · intro sound
    refine ⟨within_of_not_largest (fun largest => sound (.inr largest)) nonzero single double, ?_⟩
    by_contra uncovered
    rw [grid] at double
    exact sound (.inl (slips_of_uncovered nonzero taken double uncovered))

end Finite
end FieldGateway
