import FieldGateway.Proofs.Json.Numeral
import FieldGateway.Proofs.Text.Blank
import FieldGateway.Telemetry.Conversion

-- How a number of a document becomes a quantity: whole numbers of 64 bits stay what they are,
-- every other number goes by way of a double.
namespace FieldGateway

open Json (Numeral)

variable {n : Numeral} {x : Finite .double}

theorem IntegerType.Holds.fits {type : IntegerType} (holds : type.Holds i) : i64Least ≤ i ∧ i ≤ u64Greatest := by
  have least : i64Least ≤ type.least := by cases type <;> decide
  have greatest : type.greatest ≤ u64Greatest := by cases type <;> decide
  exact ⟨least.trans holds.1, holds.2.trans greatest⟩

namespace Json.Numeral

theorem toInt?_ofInt (i : Int) : (ofInt i).toInt? = some i := by
  simp only [ofInt, toInt?, List.isEmpty_nil, Option.isNone_none, Bool.and_self, if_true, decide_eq_true_eq]
  split
  · congr 1
    omega
  · congr 1
    omega

theorem toInt?_parts (whole : n.toInt? = some i) :
    n.fraction = [] ∧ n.exponent = none ∧ i = if n.negative then -(n.whole : Int) else n.whole := by
  unfold toInt? at whole
  split at whole
  · rename_i plain
    rw [Bool.and_eq_true, List.isEmpty_iff, Option.isNone_iff_eq_none] at plain
    exact ⟨plain.1, plain.2, (Option.some.inj whole).symm⟩
  · cases whole

theorem toBinary_of_whole (f : Format) (whole : n.toInt? = some i) :
    n.toBinary f = Binary.ofDecimal f n.negative n.whole 0 := by
  obtain ⟨fraction, exponent, _⟩ := toInt?_parts whole
  simp [toBinary, coefficient, scale, fraction, exponent]

end Json.Numeral

namespace Quantity

theorem ofReading_whole (whole : n.toInt? = some i) (low : i64Least ≤ i) (high : i ≤ u64Greatest) :
    ofReading (.number n) = .ok (.whole i) := by
  by_cases signed : i ≤ i64Greatest
  · have fits : n.toSigned? i64Least i64Greatest = some i := by
      simp [Numeral.toSigned?, whole, low, signed]
    simp only [ofReading, fits]
  · obtain ⟨fraction, exponent, value⟩ := Numeral.toInt?_parts whole
    have positive : 0 < i := lt_trans (by decide) (not_le.mp signed)
    have beyond : n.toSigned? i64Least i64Greatest = none := by
      simp [Numeral.toSigned?, whole, signed]
    have sign : n.negative = false := by
      cases negative : n.negative with
      | false => rfl
      | true =>
        rw [negative, if_pos rfl] at value
        omega
    rw [sign, if_neg (by decide)] at value
    have unsigned : n.toUnsigned? u64Greatest = some n.whole := by
      have bound : n.whole ≤ u64Greatest := by omega
      simp [Numeral.toUnsigned?, sign, fraction, exponent, bound]
    simp only [ofReading, beyond, unsigned, value]

theorem ofReading_real (real : n.toInt? = none) (double : n.toBinary .double = .finite x) :
    ofReading (.number n) = .ok (.real (.finite x)) := by
  have finite : n.toDouble? = some x := by simp [Numeral.toDouble?, double]
  simp only [ofReading, Numeral.toSigned?_of_real real, Numeral.toUnsigned?_of_real real, finite]

theorem ofReading_beyond (whole : n.toInt? = some i) (beyond : ¬ (i64Least ≤ i ∧ i ≤ u64Greatest)) :
    ofReading (.number n) = match Binary.ofDecimal .double n.negative n.whole 0 with
      | .finite x => .ok (.real (.finite x))
      | _ => .error (.numeralTooLarge n) := by
  obtain ⟨fraction, exponent, value⟩ := Numeral.toInt?_parts whole
  have signed : n.toSigned? i64Least i64Greatest = none := by
    have outside : ¬ (i64Least ≤ i ∧ i ≤ i64Greatest) := by
      intro inside
      exact beyond ⟨inside.1, inside.2.trans (by decide)⟩
    simp [Numeral.toSigned?, whole, outside]
  have unsigned : n.toUnsigned? u64Greatest = none := by
    cases negative : n.negative with
    | true => simp [Numeral.toUnsigned?, negative]
    | false =>
      rw [negative, if_neg (by decide)] at value
      have large : ¬ n.whole ≤ u64Greatest := by
        intro small
        refine beyond ⟨?_, by omega⟩
        have least : i64Least ≤ 0 := by decide
        omega
      simp [Numeral.toUnsigned?, negative, large]
  simp only [ofReading, signed, unsigned, Numeral.toDouble?, Numeral.toBinary_of_whole .double whole]
  cases Binary.ofDecimal .double n.negative n.whole 0 with
  | finite x => rfl
  | infinite negative => rfl
  | nan => rfl

end Quantity

def signText : Option Bool → Text
  | none => []
  | some false => ['+']
  | some true => ['-']

def signedValue (sign : Option Bool) (digits : List Digit) : Int :=
  if sign = some true then -(Digit.value digits : Int) else Digit.value digits

variable {digits : List Digit}

theorem digits_first (present : digits ≠ []) :
    ∃ d rest, Digit.texts digits = Digit.char d :: Digit.texts rest ∧ d.char ≠ '+' ∧ d.char ≠ '-' := by
  cases digits with
  | nil => exact absurd rfl present
  | cons d rest =>
    have plus : ∀ d : Digit, d.char ≠ '+' := by decide
    have minus : ∀ d : Digit, d.char ≠ '-' := by decide
    exact ⟨d, rest, rfl, plus d, minus d⟩

theorem splitSign_signed (sign : Option Bool) (present : digits ≠ []) :
    splitSign (signText sign ++ Digit.texts digits) = (decide (sign = some true), Digit.texts digits) := by
  obtain ⟨d, rest, first, plus, minus⟩ := digits_first present
  match sign with
  | some true => rfl
  | some false => rfl
  | none =>
    rw [first]
    simp [signText, splitSign, plus, minus]

theorem after?_mark (mark : Char) (noDigit : ∀ d : Digit, mark ≠ d.char) (digits : List Digit) :
    Text.after? ['0', mark] (Digit.texts digits) = none := by
  cases digits with
  | nil => rfl
  | cons d rest =>
    change (if '0' = d.char then Text.after? [mark] (Digit.texts rest) else none) = none
    split
    · cases rest with
      | nil => rfl
      | cons e more => exact if_neg (noDigit e)
    · rfl

theorem signed?_digits (present : digits ≠ []) (least greatest : Int) :
    Text.signed? 10 least greatest (Digit.texts digits) =
      if least ≤ Digit.value digits ∧ (Digit.value digits : Int) ≤ greatest then some (Digit.value digits : Int)
      else none := by
  obtain ⟨d, rest, first, plus, minus⟩ := digits_first present
  have natural := Text.natural?_texts digits present
  have noMinus : Text.after? ['-'] (Digit.texts digits) = none := by
    rw [first]
    exact if_neg (Ne.symm minus)
  have noPlus : Text.after? ['+'] (Digit.texts digits) = none := by
    rw [first]
    exact if_neg (Ne.symm plus)
  simp [Text.signed?, noMinus, noPlus, natural]

theorem wholeText?_digits (negative : Bool) (present : digits ≠ []) :
    wholeText? negative 10 (Digit.texts digits) =
      if (Digit.value digits : Int) ≤ i128Greatest then
        some (.whole (if negative then -(Digit.value digits : Int) else Digit.value digits))
      else none := by
  have least : i128Least ≤ -i128Greatest := by decide
  have nonneg : (0 : Int) ≤ i128Greatest := by decide
  unfold wholeText?
  rw [signed?_digits present]
  by_cases fits : (Digit.value digits : Int) ≤ i128Greatest
  · have inside : i128Least ≤ Digit.value digits ∧ (Digit.value digits : Int) ≤ i128Greatest := ⟨by omega, fits⟩
    rw [if_pos inside, if_pos fits, Option.bind_some]
    unfold signedWhole?
    refine if_pos ?_
    split
    · omega
    · omega
  · rw [if_neg (fun inside => fits inside.2), if_neg fits]
    rfl

theorem Decimal.read?_digits (sign : Option Bool) (present : digits ≠ []) :
    Decimal.read? (signText sign ++ Digit.texts digits) =
      some ⟨decide (sign = some true), Digit.value digits, 0⟩ := by
  have stops : Digit.Stops [] := fun c first => by cases first
  have run := Digit.run_texts digits stops
  rw [List.append_nil] at run
  simp [Decimal.read?, splitSign_signed sign present, run, present, Decimal.exponent?]

theorem Quantity.read?_digits (sign : Option Bool) (present : digits ≠ []) :
    Quantity.read? (signText sign ++ Digit.texts digits) =
      if (Digit.value digits : Int) ≤ i128Greatest then some (.whole (signedValue sign digits))
      else some (.real (Binary.ofDecimal .double (decide (sign = some true)) (Digit.value digits) 0)) := by
  obtain ⟨d, rest, first, plus, minus⟩ := digits_first present
  have lower : Text.after? ['0', 'x'] (Digit.texts digits) = none := after?_mark 'x' (by decide) digits
  have upper : Text.after? ['0', 'X'] (Digit.texts digits) = none := after?_mark 'X' (by decide) digits
  have split : splitSign (signText sign ++ Digit.texts digits) =
      (decide (sign = some true), d.char :: Digit.texts rest) := by rw [splitSign_signed sign present, first]
  have whole := wholeText?_digits (decide (sign = some true)) present
  have decimal := Decimal.read?_digits sign present
  have hexLower : String.toList "0x" = ['0', 'x'] := rfl
  have hexUpper : String.toList "0X" = ['0', 'X'] := rfl
  rw [first] at lower upper whole
  unfold Quantity.read?
  simp only [split, plus, minus, decide_false, Bool.or_self, Bool.false_eq_true, if_false, hexLower, hexUpper, lower,
    upper, Option.orElse_none, whole]
  by_cases fits : (Digit.value digits : Int) ≤ i128Greatest
  · simp [fits, signedValue]
  · simp [fits, Binary.read?, decimal]

end FieldGateway
