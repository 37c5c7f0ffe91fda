import FieldGateway.Proofs.Text.Natural
import FieldGateway.Toml.Number

-- Integers that are written in base ten are read as themselves.
namespace FieldGateway.Toml

variable {i : Int} {tokens : List Token}

theorem run_digit (d : Digit) (digits : List Digit) (last : Last) (first : last ≠ .nothing ∨ d ≠ .zero) :
    decimalRule.run last false (Digit.texts (d :: digits)) =
      (decimalRule.run .digit false (Digit.texts digits)).map fun (read, left) => (d.char :: read, left) := by
  have mark : ∀ d : Digit, d.char ≠ '_' := by decide
  have zero : ∀ d : Digit, d.char = '0' ↔ d = .zero := by decide
  have digit : (Text.digit? decimalRule.base d.char).isSome = true := by
    rw [show decimalRule.base = 10 from rfl, Text.digit?_char]
    rfl
  have unhindered : (decide (last = .nothing) && decide (d.char = '0')) = false := by
    simpa [zero, Decidable.imp_iff_not_or] using first
  change DigitRule.run _ _ _ (d.char :: Digit.texts digits) = _
  rw [DigitRule.run, if_neg (mark d), if_pos digit]
  simp only [Bool.false_and, Bool.false_eq_true, if_false, Bool.false_or, unhindered]

theorem run_digits (digits : List Digit) :
    decimalRule.run .digit false (Digit.texts digits) = some (Digit.texts digits, []) := by
  induction digits with
  | nil => rfl
  | cons d digits ih =>
    rw [run_digit d digits .digit (.inl (by decide)), ih]
    rfl

theorem run_ofNat (n : Nat) : decimalRule.run .nothing false (Digit.texts (Digit.ofNat n)) =
    some (Digit.texts (Digit.ofNat n), []) := by
  rcases Nat.eq_zero_or_pos n with rfl | positive
  · rw [Digit.ofNat]
    rfl
  · obtain ⟨d, digits, shape, nonzero⟩ := Digit.ofNat_head positive
    rw [shape, run_digit d digits .nothing (.inr nonzero), run_digits]
    rfl

theorem split_ofInt (i : Int) : decimalRule.split (Text.ofInt i) = some (Text.ofInt i, []) := by
  have run := run_ofNat i.natAbs
  obtain ⟨sign, rfl | rfl, shape⟩ := Text.ofInt_parts i
  · rw [shape, List.nil_append]
    cases digits : Digit.ofNat i.natAbs with
    | nil => exact absurd digits (Digit.ofNat_ne_nil _)
    | cons d rest =>
      have unsigned : ∀ d : Digit, d.char ≠ '+' ∧ d.char ≠ '-' := by decide
      rw [digits] at run
      change DigitRule.split _ (d.char :: Digit.texts rest) = _
      rw [DigitRule.split, if_neg (by simp [unsigned d])]
      exact run
  · rw [shape]
    change DigitRule.split _ ('-' :: Digit.texts _) = _
    rw [DigitRule.split, run]
    rfl

theorem any_either_of_notMem {a b : Char} {t : Text} (first : a ∉ t) (second : b ∉ t) :
    (t.any fun c => c = a || c = b) = false := by
  rw [List.any_eq_false]
  intro c member
  have other : c ≠ a ∧ c ≠ b := ⟨fun same => first (same ▸ member), fun same => second (same ▸ member)⟩
  simp [other]

def Alone (tokens : List Token) : Prop := tokens.head? ≠ some .colon ∧ tokens.head? ≠ some .period

theorem number?_ofInt (low : i64Least ≤ i) (high : i ≤ i64Greatest) (alone : Alone tokens) :
    number? (Text.ofInt i) tokens = some (.integer i, tokens) := by
  have integer : integer? decimalRule (Text.ofInt i) = some (.integer i) := by
    rw [integer?, split_ofInt]
    simp only [show decimalRule.base = 10 from rfl, Text.signed?_ofInt low high, Option.map_some]
  have absent : ∀ {c}, c ≠ '-' → (∀ d : Digit, c ≠ d.char) → c ∉ Text.ofInt i := Text.notMem_ofInt
  have unscaled : ((Text.ofInt i).any fun c => c = 'e' || c = 'E') = false := by
    have small : 'e' ∉ Text.ofInt i := absent (by decide) (by decide)
    have large : 'E' ∉ Text.ofInt i := absent (by decide) (by decide)
    exact any_either_of_notMem small large
  have named : special? (Text.ofInt i) = none := by
    have letter : 'n' ∉ Text.ofInt i := absent (by decide) (by decide)
    have different : ∀ word : Text, 'n' ∈ word → Text.ofInt i ≠ word := fun word member same => letter (same ▸ member)
    unfold special?
    rw [if_neg (different _ (by decide)), if_neg (different _ (by decide)), if_neg]
    exact not_or.mpr ⟨different _ (by decide), different _ (by decide)⟩
  unfold number?
  split
  · rename_i shape
    exact absurd (by simp [shape] : 'x' ∈ Text.ofInt i) (absent (by decide) (by decide))
  · rename_i shape
    exact absurd (by simp [shape] : 'o' ∈ Text.ofInt i) (absent (by decide) (by decide))
  · rename_i shape
    exact absurd (by simp [shape] : 'b' ∈ Text.ofInt i) (absent (by decide) (by decide))
  · rw [unscaled, if_neg Bool.false_ne_true]
    split
    · exact absurd rfl alone.2
    · rw [named, integer]
      rfl

theorem looksDated_ofInt (i : Int) : looksDated (Text.ofInt i) = false := by
  have upper : 'T' ∉ Text.ofInt i := Text.notMem_ofInt (by decide) (by decide)
  have lower : 't' ∉ Text.ofInt i := Text.notMem_ofInt (by decide) (by decide)
  have dash : '-' ∉ (Text.ofInt i).drop 1 := by
    have digit : ∀ d : Digit, '-' ≠ d.char := by decide
    have absent : '-' ∉ Digit.texts (Digit.ofNat i.natAbs) := by
      intro member
      obtain ⟨d, -, same⟩ := List.mem_map.mp member
      exact digit d same.symm
    obtain ⟨sign, rfl | rfl, shape⟩ := Text.ofInt_parts i
    · rw [shape]
      exact fun member => absent (List.mem_of_mem_drop member)
    · rw [shape]
      exact absent
  have time : ((Text.ofInt i).any fun c => c = 'T' || c = 't') = false := any_either_of_notMem upper lower
  have single : (((Text.ofInt i).drop 1).any fun c => c = '-') = false := by
    rw [List.any_eq_false]
    exact fun c member equal => dash (of_decide_eq_true equal ▸ member)
  simp only [looksDated, time, single, Bool.false_or, Bool.false_and]

theorem startsNumber_ofInt (i : Int) : startsNumber (Text.ofInt i) = true := by
  have first : ((Text.ofInt i).headD ' ').isDigit = true ∨ (Text.ofInt i).headD ' ' = '-' := by
    obtain ⟨sign, rfl | rfl, shape⟩ := Text.ofInt_parts i
    · cases digits : Digit.ofNat i.natAbs with
      | nil => exact absurd digits (Digit.ofNat_ne_nil _)
      | cons d rest =>
        rw [shape, digits]
        exact .inl (Digit.char_isDigit d)
    · rw [shape]
      exact .inr rfl
  rcases first with digit | dash
  · simp only [startsNumber, digit, Bool.or_true, Bool.true_or]
  · simp only [startsNumber, dash, decide_true, Bool.or_true]

theorem word?_ofInt (low : i64Least ≤ i) (high : i ≤ i64Greatest) (alone : Alone tokens) :
    word? (Text.ofInt i) tokens = some (.integer i, tokens) := by
  have letter : 'e' ∉ Text.ofInt i := Text.notMem_ofInt (by decide) (by decide)
  have different : ∀ word : Text, 'e' ∈ word → Text.ofInt i ≠ word := fun word member same => letter (same ▸ member)
  unfold word?
  rw [if_neg (different _ (by decide)), if_neg (different _ (by decide)), startsNumber_ofInt, if_neg (by decide),
    looksDated_ofInt, if_neg (by simp [alone.1])]
  exact number?_ofInt low high alone

end FieldGateway.Toml
