import FieldGateway.Binary.Shortest
import FieldGateway.Proofs.Binary.Rounding
import FieldGateway.Proofs.Text.Digits
import Mathlib.Data.List.TakeWhile

-- The shortest decimal of a number is covered by it, so it reads back, and it is the nearest
-- one on its grid.
namespace FieldGateway

open Binary (decimalValue)

namespace Scientific

def value (s : Scientific) : ℚ := decimalValue (Digit.value s.digits) (s.position + 1 - s.digits.length)

theorem stripped_append (digits : List Digit) :
    ∃ count, digits = (digits.reverse.dropWhile (· == Digit.zero)).reverse ++ List.replicate count Digit.zero := by
  refine ⟨(digits.reverse.takeWhile (· == Digit.zero)).length, ?_⟩
  have zeros : digits.reverse.takeWhile (· == Digit.zero) =
      List.replicate (digits.reverse.takeWhile (· == Digit.zero)).length Digit.zero := by
    refine List.eq_replicate_of_mem fun d member => ?_
    simpa using List.mem_takeWhile_imp member
  have parts := congrArg List.reverse (List.takeWhile_append_dropWhile (p := (· == Digit.zero)) (l := digits.reverse))
  rw [List.reverse_append, List.reverse_reverse, zeros, List.reverse_replicate] at parts
  exact parts.symm

theorem ofGrid_value (point : Nat) (grid : Int) : (ofGrid point grid).value = decimalValue point grid := by
  obtain ⟨count, split⟩ := stripped_append (Digit.ofNat point)
  have whole := Digit.value_ofNat point
  unfold ofGrid value
  simp only
  generalize ((Digit.ofNat point).reverse.dropWhile (· == Digit.zero)).reverse = kept at split ⊢
  rw [split, Digit.value_append, Digit.value_zeros, List.length_replicate, Nat.add_zero] at whole
  rw [split, ← whole, List.length_append, List.length_replicate]
  have shift : grid + ((kept.length + count : Nat) : Int) - 1 + 1 - kept.length = count + grid := by
    push_cast
    ring
  rw [shift, Binary.decimalValue_mul_pow]

end Scientific

theorem leadingPosition_le (numerator : 0 < n) (denominator : 0 < d) :
    (10 : ℚ) ^ leadingPosition n d ≤ n / d := by
  have divisor : (0 : ℚ) < d := by exact_mod_cast denominator
  have dividend : (0 : ℚ) < n := by exact_mod_cast numerator
  unfold leadingPosition
  split
  · rename_i large
    have quotient : 0 < n / d := Nat.div_pos large denominator
    have low := Digit.pow_length_le quotient
    have length : ((Digit.ofNat (n / d)).length : Int) - 1 = ((Digit.ofNat (n / d)).length - 1 : Nat) := by
      have := List.length_pos_iff.mpr (Digit.ofNat_ne_nil (n / d))
      omega
    rw [length, zpow_natCast, le_div_iff₀ divisor]
    exact_mod_cast (Nat.le_div_iff_mul_le denominator).mp low
  · rename_i small
    split
    · rename_i equal
      have := Nat.lt_of_div_eq_zero numerator equal
      omega
    · have high := Digit.lt_pow_length ((d - 1) / n)
      rw [Nat.div_lt_iff_lt_mul numerator] at high
      rw [zpow_neg, zpow_natCast, inv_eq_one_div, div_le_div_iff₀ (by positivity) divisor, one_mul]
      exact_mod_cast (by rw [Nat.mul_comm]; omega : d ≤ n * 10 ^ (Digit.ofNat ((d - 1) / n)).length)

namespace Finite

variable {f : Format} {x : Finite f}

-- Both sides of the comparisons are integers once they are multiplied by this.
def gridScale (x : Finite f) (g : Int) : Nat := x.interval.divisor * Nat.pow 10 (-g).toNat

theorem gridScale_pos (x : Finite f) (g : Int) : (0 : ℚ) < x.gridScale g := by
  unfold gridScale interval
  exact_mod_cast Nat.mul_pos (Nat.pow_pos (by decide)) (Nat.pow_pos (by decide))

theorem quarters_scaled (x : Finite f) (a : Nat) (g : Int) :
    ((a * (x.interval.unit * Nat.pow 10 (-g).toNat) : Nat) : ℚ) = a / 4 * 2 ^ x.exponent * x.gridScale g := by
  have binary := zpow_eq_fraction 2 (x.exponent - 2)
  have divisor : (0 : ℚ) < 2 ^ (-(x.exponent - 2)).toNat := by positivity
  have quarter : (2 : ℚ) ^ (x.exponent - 2) = 2 ^ x.exponent / 4 := by
    rw [zpow_sub₀ (by norm_num)]
    norm_num
  push_cast at binary
  rw [quarter, eq_div_iff (ne_of_gt divisor)] at binary
  unfold gridScale interval
  push_cast [Nat.pow_eq]
  rw [← binary]
  ring

theorem point_scaled (x : Finite f) (p : Nat) (g : Int) :
    ((p * Nat.pow 10 g.toNat * x.interval.divisor : Nat) : ℚ) = decimalValue p g * x.gridScale g := by
  have decimal := zpow_eq_fraction 10 g
  have divisor : (0 : ℚ) < 10 ^ (-g).toNat := by positivity
  push_cast at decimal
  rw [eq_div_iff (ne_of_gt divisor)] at decimal
  unfold gridScale decimalValue
  push_cast [Nat.pow_eq]
  rw [← decimal]
  ring

theorem quarters_le_iff (x : Finite f) (a p : Nat) (g : Int) :
    a * (x.interval.unit * Nat.pow 10 (-g).toNat) ≤ p * Nat.pow 10 g.toNat * x.interval.divisor ↔
      (a : ℚ) / 4 * 2 ^ x.exponent ≤ decimalValue p g := by
  rw [← Nat.cast_le (α := ℚ), quarters_scaled, point_scaled, mul_le_mul_iff_left₀ (x.gridScale_pos g)]

theorem le_quarters_iff (x : Finite f) (a p : Nat) (g : Int) :
    p * Nat.pow 10 g.toNat * x.interval.divisor ≤ a * (x.interval.unit * Nat.pow 10 (-g).toNat) ↔
      decimalValue p g ≤ (a : ℚ) / 4 * 2 ^ x.exponent := by
  rw [← Nat.cast_le (α := ℚ), quarters_scaled, point_scaled, mul_le_mul_iff_left₀ (x.gridScale_pos g)]

theorem interval_low (nonzero : x.mantissa ≠ 0) : (x.interval.low : ℚ) / 4 * 2 ^ x.exponent = x.lower := by
  have narrow : ((x.mantissa == Nat.pow 2 (f.precision - 1) && x.exponent != f.least) = true) ↔ x.narrow := by
    simp [Finite.narrow]
  unfold interval lower
  simp only [narrow]
  congr 1
  split
  · rw [Nat.cast_sub (by omega)]
    push_cast
    ring
  · rw [Nat.cast_sub (by omega)]
    push_cast
    ring

theorem interval_high (x : Finite f) : (x.interval.high : ℚ) / 4 * 2 ^ x.exponent = x.upper := by
  unfold interval upper
  congr 1
  push_cast
  ring

theorem interval_holds (nonzero : x.mantissa ≠ 0) (p : Nat) (g : Int) :
    x.interval.holds p g = true ↔ x.Covers (decimalValue p g) := by
  have low := quarters_le_iff x x.interval.low p g
  have high := le_quarters_iff x x.interval.high p g
  have lowStrict := le_quarters_iff x x.interval.low p g
  have highStrict := quarters_le_iff x x.interval.high p g
  rw [interval_low nonzero] at low lowStrict
  rw [interval_high] at high highStrict
  have closed : x.interval.closed = true ↔ x.mantissa % 2 = 0 := by simp [interval]
  unfold Interval.holds Covers
  simp only [closed]
  split
  · simp only [Bool.and_eq_true, decide_eq_true_eq, low, high]
  · simp only [Bool.and_eq_true, decide_eq_true_eq, ← not_le, lowStrict, highStrict]

def gridDividend (x : Finite f) (g : Int) : Nat := x.interval.middle * x.interval.unit * Nat.pow 10 (-g).toNat
def gridDivisor (x : Finite f) (g : Int) : Nat := x.interval.divisor * Nat.pow 10 g.toNat

theorem gridDividend_scaled (x : Finite f) (g : Int) : (x.gridDividend g : ℚ) = x.magnitude * x.gridScale g := by
  have middle : (x.interval.middle : ℚ) / 4 * 2 ^ x.exponent = x.magnitude := by
    unfold interval magnitude
    push_cast
    ring
  rw [gridDividend, mul_assoc, quarters_scaled, middle]

theorem gridDivisor_scaled (x : Finite f) (g : Int) : (x.gridDivisor g : ℚ) = 10 ^ g * x.gridScale g := by
  have one := point_scaled x 1 g
  rw [decimalValue, Nat.cast_one, one_mul, one_mul] at one
  rw [gridDivisor, mul_comm, one]

theorem gridDivisor_pos (x : Finite f) (g : Int) : 0 < x.gridDivisor g :=
  Nat.mul_pos (Nat.pow_pos (by decide)) (Nat.pow_pos (by decide))

theorem remainder_scaled (x : Finite f) (g : Int) : ((x.gridDividend g % x.gridDivisor g : Nat) : ℚ) =
    (x.magnitude - decimalValue (x.gridDividend g / x.gridDivisor g) g) * x.gridScale g := by
  have parts : ((x.gridDividend g / x.gridDivisor g * x.gridDivisor g + x.gridDividend g % x.gridDivisor g : Nat) : ℚ) =
      x.gridDividend g := by rw [Nat.div_add_mod']
  rw [Nat.cast_add, Nat.cast_mul, gridDividend_scaled, gridDivisor_scaled] at parts
  rw [decimalValue]
  linarith

theorem below_le (x : Finite f) (g : Int) :
    decimalValue (x.gridDividend g / x.gridDivisor g) g ≤ x.magnitude := by
  have rest := remainder_scaled x g
  have nonneg : (0 : ℚ) ≤ ((x.gridDividend g % x.gridDivisor g : Nat) : ℚ) := by positivity
  rw [rest] at nonneg
  linarith [nonneg_of_mul_nonneg_left nonneg (x.gridScale_pos g)]

theorem decimalValue_succ (p : Nat) (g : Int) : decimalValue (p + 1) g = decimalValue p g + 10 ^ g := by
  unfold decimalValue
  push_cast
  ring

theorem lt_above (x : Finite f) (g : Int) :
    x.magnitude < decimalValue (x.gridDividend g / x.gridDivisor g + 1) g := by
  have rest := remainder_scaled x g
  have less : ((x.gridDividend g % x.gridDivisor g : Nat) : ℚ) < x.gridDivisor g := by
    exact_mod_cast Nat.mod_lt _ (x.gridDivisor_pos g)
  rw [rest, gridDivisor_scaled, mul_lt_mul_iff_left₀ (x.gridScale_pos g)] at less
  rw [decimalValue_succ]
  linarith

theorem remainder_lt_iff (x : Finite f) (g : Int) : 2 * (x.gridDividend g % x.gridDivisor g) < x.gridDivisor g ↔
    2 * (x.magnitude - decimalValue (x.gridDividend g / x.gridDivisor g) g) < 10 ^ g := by
  rw [← Nat.cast_lt (α := ℚ), Nat.cast_mul, remainder_scaled, gridDivisor_scaled, ← mul_assoc,
    mul_lt_mul_iff_left₀ (x.gridScale_pos g), Nat.cast_ofNat]

theorem lt_remainder_iff (x : Finite f) (g : Int) : x.gridDivisor g < 2 * (x.gridDividend g % x.gridDivisor g) ↔
    10 ^ g < 2 * (x.magnitude - decimalValue (x.gridDividend g / x.gridDivisor g) g) := by
  rw [← Nat.cast_lt (α := ℚ), Nat.cast_mul, remainder_scaled, gridDivisor_scaled, ← mul_assoc,
    mul_lt_mul_iff_left₀ (x.gridScale_pos g), Nat.cast_ofNat]

theorem onGrid?_eq (x : Finite f) (g : Int) :
    x.interval.onGrid? g =
      match x.interval.holds (x.gridDividend g / x.gridDivisor g) g,
        x.interval.holds (x.gridDividend g / x.gridDivisor g + 1) g with
      | false, false => none
      | true, false => some (x.gridDividend g / x.gridDivisor g)
      | false, true => some (x.gridDividend g / x.gridDivisor g + 1)
      | true, true =>
        if 2 * (x.gridDividend g % x.gridDivisor g) < x.gridDivisor g then
          some (x.gridDividend g / x.gridDivisor g)
        else if x.gridDivisor g < 2 * (x.gridDividend g % x.gridDivisor g) then
          some (x.gridDividend g / x.gridDivisor g + 1)
        else if x.gridDividend g / x.gridDivisor g % 2 = 0 then some (x.gridDividend g / x.gridDivisor g)
        else some (x.gridDividend g / x.gridDivisor g + 1) := rfl

theorem upper_le_of_not_covers (above : x.magnitude ≤ r) (uncovered : ¬ x.Covers r) : x.upper ≤ r := by
  by_contra below
  exact uncovered (covers_of_lt (lt_of_lt_of_le x.lower_lt above) (not_le.mp below))

theorem le_lower_of_not_covers (below : r ≤ x.magnitude) (uncovered : ¬ x.Covers r) : r ≤ x.lower := by
  by_contra above
  exact uncovered (covers_of_lt (not_le.mp above) (lt_of_le_of_lt below x.lt_upper))

theorem lower_eq (wide : ¬ x.narrow) : x.lower = x.magnitude - 1 / 2 * 2 ^ x.exponent := by
  unfold lower magnitude
  rw [if_neg wide]
  ring

theorem upper_eq (x : Finite f) : x.upper = x.magnitude + 1 / 2 * 2 ^ x.exponent := by
  unfold upper magnitude
  ring

-- The point that is taken is covered, and no other point of its grid is nearer, unless the
-- interval is lopsided.
theorem onGrid?_spec (nonzero : x.mantissa ≠ 0) (taken : x.interval.onGrid? g = some p) :
    x.Covers (decimalValue p g) ∧ (¬ x.narrow → 2 * |decimalValue p g - x.magnitude| ≤ 10 ^ g) := by
  have low := x.below_le g
  have high := x.lt_above g
  have next := decimalValue_succ (x.gridDividend g / x.gridDivisor g) g
  have upper := x.upper_eq
  have below : |decimalValue (x.gridDividend g / x.gridDivisor g) g - x.magnitude| =
      x.magnitude - decimalValue (x.gridDividend g / x.gridDivisor g) g := by
    rw [abs_sub_comm, abs_of_nonneg (by linarith)]
  have above : |decimalValue (x.gridDividend g / x.gridDivisor g + 1) g - x.magnitude| =
      decimalValue (x.gridDividend g / x.gridDivisor g + 1) g - x.magnitude := abs_of_nonneg (by linarith)
  rw [onGrid?_eq] at taken
  split at taken
  · cases taken
  · rename_i holdsBelow holdsAbove
    cases taken
    rw [interval_holds nonzero] at holdsBelow
    have uncovered := upper_le_of_not_covers high.le fun covers =>
      Bool.false_ne_true (holdsAbove.symm.trans ((interval_holds nonzero _ _).mpr covers))
    refine ⟨holdsBelow, fun wide => ?_⟩
    have lower := lower_eq wide
    linarith [holdsBelow.bounds.1]
  · rename_i holdsBelow holdsAbove
    cases taken
    rw [interval_holds nonzero] at holdsAbove
    have uncovered := le_lower_of_not_covers low fun covers =>
      Bool.false_ne_true (holdsBelow.symm.trans ((interval_holds nonzero _ _).mpr covers))
    refine ⟨holdsAbove, fun wide => ?_⟩
    have lower := lower_eq wide
    linarith [holdsAbove.bounds.2]
  · rename_i holdsBelow holdsAbove
    rw [interval_holds nonzero] at holdsBelow holdsAbove
    split at taken
    · rename_i nearBelow
      rw [remainder_lt_iff] at nearBelow
      cases taken
      exact ⟨holdsBelow, fun _ => by linarith⟩
    · rename_i farBelow
      rw [remainder_lt_iff, not_lt] at farBelow
      split at taken
      · cases taken
        exact ⟨holdsAbove, fun _ => by linarith⟩
      · rename_i farAbove
        rw [lt_remainder_iff, not_lt] at farAbove
        split at taken
        · cases taken
          exact ⟨holdsBelow, fun _ => by linarith⟩
        · cases taken
          exact ⟨holdsAbove, fun _ => by linarith⟩

theorem onGrid?_isSome (nonzero : x.mantissa ≠ 0) (fine : 10 ^ g < 2 * (x.magnitude - x.lower)) :
    ∃ p, x.interval.onGrid? g = some p := by
  have low := x.below_le g
  have high := x.lt_above g
  have next := decimalValue_succ (x.gridDividend g / x.gridDivisor g) g
  have half := x.half_unit_le
  have upper := x.upper_eq
  rw [onGrid?_eq]
  split
  · rename_i holdsBelow holdsAbove
    exfalso
    have farBelow := le_lower_of_not_covers low fun covers =>
      Bool.false_ne_true (holdsBelow.symm.trans ((interval_holds nonzero _ _).mpr covers))
    have farAbove := upper_le_of_not_covers high.le fun covers =>
      Bool.false_ne_true (holdsAbove.symm.trans ((interval_holds nonzero _ _).mpr covers))
    linarith
  · exact ⟨_, rfl⟩
  · exact ⟨_, rfl⟩
  · split
    · exact ⟨_, rfl⟩
    · split
      · exact ⟨_, rfl⟩
      · split
        · exact ⟨_, rfl⟩
        · exact ⟨_, rfl⟩

theorem search_eq {j grids : Nat} (i : Interval) (g : Int) (found : i.onGrid? (g - j) = some q) (within : j < grids) :
    ∃ p g', i.onGrid? g' = some p ∧ i.search g grids = Scientific.ofGrid p g' := by
  induction grids generalizing g j with
  | zero => omega
  | succ grids ih =>
    unfold Interval.search
    split
    · rename_i p taken
      exact ⟨p, g, taken, rfl⟩
    · rename_i missed
      cases j with
      | zero => simp [missed] at found
      | succ j =>
        have later : i.onGrid? (g - 1 - j) = some q := by
          rw [← found]
          congr 1
          push_cast
          ring
        exact ih (g - 1) later (by omega)

theorem numerator_pos (nonzero : x.mantissa ≠ 0) : 0 < x.numerator :=
  Nat.mul_pos (Nat.pos_of_ne_zero nonzero) (Nat.pow_pos (by decide))

theorem seventeen_digits (nonzero : x.mantissa ≠ 0) (bits : f.precision ≤ 53) :
    (10 : ℚ) ^ (leadingPosition x.numerator x.denominator - (16 : Nat)) < 2 * (x.magnitude - x.lower) := by
  have unit : (0 : ℚ) < 2 ^ x.exponent := by positivity
  have leading := leadingPosition_le (numerator_pos nonzero) x.denominator_pos
  rw [← magnitude_eq_ratio] at leading
  have grid : (10 : ℚ) ^ (leadingPosition x.numerator x.denominator - (16 : Nat)) ≤ x.magnitude / 10 ^ 16 := by
    rw [zpow_sub₀ (by norm_num), zpow_natCast]
    gcongr
  have mantissa : (x.mantissa : ℚ) ≤ 2 ^ 53 := by
    have bound := Nat.le_trans x.mantissa_lt.le (Nat.pow_le_pow_right (by decide : 0 < 2) bits)
    exact_mod_cast bound
  refine lt_of_le_of_lt grid ?_
  by_cases narrow : x.narrow
  · have half : (x.mantissa : ℚ) ≤ 2 ^ 52 := by
      rw [narrow.1]
      exact_mod_cast Nat.pow_le_pow_right (by decide : 0 < 2) (by omega : f.precision - 1 ≤ 52)
    unfold magnitude lower
    rw [if_pos narrow]
    nlinarith
  · rw [lower_eq narrow]
    unfold magnitude
    nlinarith

-- The digits that are printed are covered by the number, and are those of a grid on which
-- no point is nearer.
theorem shortest_eq (nonzero : x.mantissa ≠ 0) (bits : f.precision ≤ 53) :
    ∃ p g, x.interval.onGrid? g = some p ∧ x.shortest = Scientific.ofGrid p g := by
  obtain ⟨q, found⟩ := onGrid?_isSome nonzero (seventeen_digits nonzero bits)
  unfold shortest
  rw [if_neg nonzero]
  exact search_eq _ _ found (by omega)

theorem Covers.extremes (covers : x.Covers r) (nonzero : x.mantissa ≠ 0) :
    1 / 2 * 2 ^ f.least ≤ r ∧ r ≤ 2 ^ f.precision * 2 ^ f.greatest := by
  have positive : (1 : ℚ) ≤ x.mantissa := by exact_mod_cast Nat.one_le_iff_ne_zero.mpr nonzero
  have bounded : (x.mantissa : ℚ) + 1 ≤ 2 ^ f.precision := by exact_mod_cast x.mantissa_lt
  have unit : (0 : ℚ) < 2 ^ x.exponent := by positivity
  have least : (2 : ℚ) ^ f.least ≤ 2 ^ x.exponent := zpow_le_zpow_right₀ (by norm_num) x.least_le
  have greatest : (2 : ℚ) ^ x.exponent ≤ 2 ^ f.greatest := zpow_le_zpow_right₀ (by norm_num) x.canonical.2.2.1
  constructor
  · calc 1 / 2 * (2 : ℚ) ^ f.least ≤ 1 / 2 * 2 ^ x.exponent := by linarith
      _ ≤ x.lower := by
        unfold lower
        refine mul_le_mul_of_nonneg_right ?_ unit.le
        split <;> linarith
      _ ≤ r := covers.bounds.1
  · calc r ≤ x.upper := covers.bounds.2
      _ ≤ 2 ^ f.precision * 2 ^ x.exponent := mul_le_mul_of_nonneg_right (by linarith) unit.le
      _ ≤ 2 ^ f.precision * 2 ^ f.greatest := mul_le_mul_of_nonneg_left greatest (by positivity)

theorem Covers.coefficient_pos (covers : x.Covers (decimalValue c e)) (nonzero : x.mantissa ≠ 0) : 0 < c := by
  by_contra zero
  have none : c = 0 := by omega
  rw [none, decimalValue, Nat.cast_zero, zero_mul, Binary.covers_zero_iff] at covers
  exact nonzero covers

end Finite

structure Format.Reached (f : Format) : Prop where
  floor : (10 : ℚ) ^ Binary.decimalFloor ≤ 1 / 2 * 2 ^ f.least
  ceiling : (2 : ℚ) ^ f.precision * 2 ^ f.greatest ≤ 10 ^ Binary.decimalCeiling

theorem Format.double_reached : Format.double.Reached := by
  have low : ((2 ^ 1075 : Nat) : ℚ) ≤ (10 ^ 330 : Nat) := Nat.cast_le.mpr (by decide +kernel)
  have high : ((2 ^ 53 * 2 ^ 971 : Nat) : ℚ) ≤ (10 ^ 310 : Nat) := Nat.cast_le.mpr (by decide +kernel)
  simp only [Nat.cast_mul, Nat.cast_pow, Nat.cast_ofNat] at low high
  constructor
  · calc (10 : ℚ) ^ Binary.decimalFloor = (10 ^ 330)⁻¹ := zpow_neg_coe_of_pos _ (by decide)
      _ ≤ (2 ^ 1075)⁻¹ := inv_anti₀ (by positivity) low
      _ = 1 / 2 * (2 ^ 1074)⁻¹ := by rw [pow_succ, mul_inv, mul_comm, one_div]
      _ = 1 / 2 * 2 ^ Format.double.least := by rw [← zpow_natCast, ← zpow_neg]; rfl
  · change (2 : ℚ) ^ 53 * 2 ^ ((971 : Nat) : Int) ≤ 10 ^ ((310 : Nat) : Int)
    rwa [zpow_natCast, zpow_natCast]

theorem Format.single_reached : Format.single.Reached := by
  constructor
  · calc (10 : ℚ) ^ Binary.decimalFloor ≤ 10 ^ (-50 : Int) := zpow_le_zpow_right₀ (by norm_num) (by decide)
      _ ≤ 1 / 2 * 2 ^ (-149 : Int) := by norm_num
  · calc (2 : ℚ) ^ 24 * 2 ^ (104 : Int) ≤ 10 ^ (50 : Int) := by norm_num
      _ ≤ 10 ^ Binary.decimalCeiling := zpow_le_zpow_right₀ (by norm_num) (by decide)

namespace Finite

variable {f : Format} {x : Finite f}

theorem ofDecimal_shortest (regular : f.Regular) (reached : f.Reached) (bits : f.precision ≤ 53)
    (nonzero : x.mantissa ≠ 0) (printed : decimalValue c e = x.shortest.value) :
    Binary.ofDecimal f x.negative c e = .finite x := by
  obtain ⟨p, g, taken, shortest⟩ := shortest_eq nonzero bits
  have covers := (onGrid?_spec nonzero taken).1
  rw [← Scientific.ofGrid_value, ← shortest, ← printed] at covers
  obtain ⟨low, high⟩ := covers.extremes nonzero
  have positive := covers.coefficient_pos nonzero
  exact Binary.ofDecimal_of_covers regular positive rfl covers (reached.floor.trans low) (high.trans reached.ceiling)

end Finite
end FieldGateway
