import FieldGateway.Json.Token
import FieldGateway.Proofs.Binary.Shortest

-- Numerals of computed numbers mean what was computed, and every numeral is read back from its
-- text with all its digits.
namespace FieldGateway.Json.Numeral

open Binary (decimalValue)

section Meaning

variable {s : Scientific} {layout : Layout} {negative : Bool}

def value (n : Numeral) : ℚ := decimalValue n.coefficient n.scale

theorem coefficient_eq (n : Numeral) : n.coefficient = n.whole * 10 ^ n.fraction.length + Digit.value n.fraction :=
  Digit.foldl_value _ _

theorem value_point (negative : Bool) (whole fraction : List Digit) :
    value ⟨negative, Digit.value whole, fraction, none⟩ =
      decimalValue (Digit.value (whole ++ fraction)) (-fraction.length) := by
  unfold value
  rw [coefficient_eq, ← Digit.value_append]
  simp [scale]

theorem value_plain (negative : Bool) (s : Scientific) : (plain negative s).value = s.value := by
  unfold plain
  split
  · -- Zeros stand between the point and the digits.
    rename_i below
    have split := value_point negative [] (List.replicate (-s.position - 1).toNat Digit.zero ++ s.digits)
    rw [List.nil_append, Digit.value_append, Digit.value_zeros, Nat.zero_mul, Nat.zero_add, List.length_append,
      List.length_replicate] at split
    refine split.trans ?_
    unfold Scientific.value
    congr 1
    push_cast
    omega
  · rename_i above
    rcases Nat.lt_or_ge (s.position.toNat + 1) s.digits.length with long | short
    · have rest : (s.digits.drop (s.position.toNat + 1)).isEmpty = false := by
        rw [List.isEmpty_eq_false_iff, ne_eq, List.drop_eq_nil_iff]
        omega
      simp only [rest, Bool.false_eq_true, if_false]
      rw [value_point, Nat.sub_eq_zero_of_le (by omega), List.replicate_zero, List.append_nil,
        List.take_append_drop, List.length_drop]
      unfold Scientific.value
      congr 1
      omega
    · -- All digits stand in front of the point, with zeros behind them.
      have rest : (s.digits.drop (s.position.toNat + 1)).isEmpty = true := by
        rw [List.isEmpty_iff, List.drop_eq_nil_iff]
        exact short
      simp only [rest, if_true]
      rw [value_point, List.take_of_length_le short, List.append_assoc, Digit.value_append]
      have zeros : Digit.value (List.replicate (s.position.toNat + 1 - s.digits.length) Digit.zero ++ [Digit.zero]) = 0 := by
        rw [Digit.value_append, Digit.value_zeros]
        rfl
      rw [zeros, Nat.add_zero, Binary.decimalValue_mul_pow]
      unfold Scientific.value
      congr 1
      simp only [List.length_append, List.length_replicate, List.length_singleton]
      push_cast
      omega

theorem exponent_value (position : Int) :
    Exponent.value ⟨position < 0, (Digit.ofNat position.natAbs).headD Digit.zero, (Digit.ofNat position.natAbs).drop 1⟩ =
      position := by
  have digits : (Digit.ofNat position.natAbs).headD Digit.zero :: (Digit.ofNat position.natAbs).drop 1 =
      Digit.ofNat position.natAbs := by
    cases h : Digit.ofNat position.natAbs with
    | nil => exact absurd h (Digit.ofNat_ne_nil _)
    | cons d ds => rfl
  simp only [Exponent.value, digits, Digit.value_ofNat, decide_eq_true_eq]
  split <;> omega

theorem value_scientific (present : s.digits ≠ []) : (scientific negative s).value = s.value := by
  have exponent := exponent_value s.position
  unfold value
  rw [coefficient_eq]
  unfold scientific scale
  simp only [Option.map_some, Option.getD_some, exponent]
  rw [← Digit.value_append, List.take_append_drop, List.length_drop]
  unfold Scientific.value
  have positive := List.length_pos_iff.mpr present
  congr 1
  omega

theorem value_ofScientific (layout : Layout) (negative : Bool) (s : Scientific) :
    (ofScientific layout negative s).value = s.value := by
  unfold ofScientific
  split
  · rename_i empty
    rw [List.isEmpty_iff] at empty
    simp [value, Scientific.value, empty, coefficient, Digit.value, decimalValue, Digit.zero]
  · rename_i present
    rw [List.isEmpty_iff] at present
    split
    · exact value_plain negative s
    · exact value_scientific present

theorem negative_ofScientific (layout : Layout) (negative : Bool) (s : Scientific) :
    (ofScientific layout negative s).negative = negative := by
  unfold ofScientific plain scientific
  split
  · rfl
  · split
    · split <;> rfl
    · rfl

theorem plain_fraction (negative : Bool) (present : s.digits ≠ []) : (plain negative s).fraction ≠ [] := by
  unfold plain
  split
  · exact List.append_ne_nil_of_right_ne_nil _ present
  · simp only
    split
    · exact List.cons_ne_nil _ _
    · rename_i rest
      rwa [List.isEmpty_iff] at rest

theorem toInt?_ofScientific (layout : Layout) (negative : Bool) (s : Scientific) :
    (ofScientific layout negative s).toInt? = none := by
  unfold ofScientific
  split
  · rfl
  · rename_i present
    rw [List.isEmpty_iff] at present
    split
    · have fraction := plain_fraction negative present
      simp [toInt?, fraction]
    · simp [toInt?, scientific]

theorem toSigned?_of_real {n : Numeral} (real : n.toInt? = none) : n.toSigned? least greatest = none := by
  simp [toSigned?, real]

theorem toUnsigned?_of_real {n : Numeral} (real : n.toInt? = none) : n.toUnsigned? greatest = none := by
  unfold toInt? at real
  split at real
  · cases real
  · rename_i marked
    simp only [Bool.and_eq_true, not_and_or] at marked
    unfold toUnsigned?
    rcases marked with point | exponent
    · simp [point]
    · have power : n.exponent.isSome = true := by
        cases h : n.exponent with
        | none => simp [h] at exponent
        | some e => rfl
      simp [power]

end Meaning

section Reading

theorem stops_of_ne (c : Char) (rest : Text) (noDigit : Digit.ofChar? c = none) : Digit.Stops (c :: rest) := by
  intro d first
  cases first
  exact noDigit

theorem ofNat_shape (n : Nat) :
    (∃ d, Digit.ofNat n = [d]) ∨ ∃ d e es, Digit.ofNat n = d :: e :: es ∧ d ≠ Digit.zero := by
  rcases Nat.eq_zero_or_pos n with rfl | positive
  · exact .inl ⟨_, Digit.ofNat_small (by decide)⟩
  · obtain ⟨d, ds, digits, nonzero⟩ := Digit.ofNat_head positive
    cases ds with
    | nil => exact .inl ⟨d, digits⟩
    | cons e es => exact .inr ⟨d, e, es, digits, nonzero⟩

def fractionText (digits : List Digit) : Text := if digits.isEmpty then [] else '.' :: Digit.texts digits

def exponentText : Option Exponent → Text
  | none => []
  | some e => 'e' :: e.text

theorem text_eq (n : Numeral) : n.text =
    (if n.negative then ['-'] else []) ++ (Text.ofNat n.whole ++ (fractionText n.fraction ++ exponentText n.exponent)) := by
  cases exponent : n.exponent <;> simp [text, fractionText, exponentText, exponent]

theorem exponentText_stops (e : Option Exponent) : Digit.Stops (exponentText e) := by
  cases e with
  | none => intro c first; cases first
  | some e => exact stops_of_ne _ _ (by decide)

theorem fractionText_stops (digits : List Digit) (e : Option Exponent) :
    Digit.Stops (fractionText digits ++ exponentText e) := by
  unfold fractionText
  split
  · exact exponentText_stops e
  · exact stops_of_ne _ _ (by decide)

theorem ofNat_first (n : Nat) : ∃ d rest, Text.ofNat n = Digit.char d :: rest := by
  unfold Text.ofNat
  cases digits : Digit.ofNat n with
  | nil => exact absurd digits (Digit.ofNat_ne_nil n)
  | cons d ds => exact ⟨d, Digit.texts ds, rfl⟩

theorem char_ne_minus (d : Digit) : d.char ≠ '-' := by
  revert d
  decide

theorem run_exponent (e : Exponent) : Digit.run (Digit.texts (e.first :: e.rest)) = (e.first :: e.rest, []) := by
  have stops : Digit.Stops [] := fun c first => by cases first
  have run := Digit.run_texts (e.first :: e.rest) stops
  rwa [List.append_nil] at run

theorem read?_text (n : Numeral) : read? n.text = some n := by
  obtain ⟨negative, whole, fraction, exponent⟩ := n
  have run := Digit.run_texts (Digit.ofNat whole) (fractionText_stops fraction exponent)
  have runFraction := Digit.run_texts fraction (exponentText_stops exponent)
  have value := Digit.value_ofNat whole
  obtain ⟨d, rest, first⟩ := ofNat_first whole
  have minus := char_ne_minus d
  rw [text_eq]
  change Digit.run (Text.ofNat whole ++ _) = _ at run
  rw [first, List.cons_append] at run
  rw [first]
  -- What each run of digits leaves is known now, so every part is read on its own.
  cases exponent with
  | none =>
    rcases ofNat_shape whole with ⟨_, digits⟩ | ⟨_, _, _, digits, nonzero⟩
    · rw [digits] at run value
      cases negative <;> cases fraction <;> simp_all [read?, fractionText, exponentText]
    · rw [digits] at run value
      cases negative <;> cases fraction <;> simp_all [read?, fractionText, exponentText]
  | some power =>
    have runExponent := run_exponent power
    obtain ⟨below, _, _⟩ := power
    rcases ofNat_shape whole with ⟨_, digits⟩ | ⟨_, _, _, digits, nonzero⟩
    · rw [digits] at run value
      cases negative <;> cases fraction <;> cases below <;>
        simp_all [read?, fractionText, exponentText, Exponent.text]
    · rw [digits] at run value
      cases negative <;> cases fraction <;> cases below <;>
        simp_all [read?, fractionText, exponentText, Exponent.text]

theorem isNumberChar_texts (digits : List Digit) : ∀ c ∈ Digit.texts digits, isNumberChar c = true := by
  intro c member
  obtain ⟨d, _, rfl⟩ := List.mem_map.mp member
  simp [isNumberChar, Digit.char_isDigit]

theorem isNumberChar_fraction (digits : List Digit) : ∀ c ∈ fractionText digits, isNumberChar c = true := by
  intro c member
  unfold fractionText at member
  split at member
  · cases member
  · rcases List.mem_cons.mp member with rfl | later
    · decide
    · exact isNumberChar_texts digits c later

theorem isNumberChar_exponent (e : Option Exponent) : ∀ c ∈ exponentText e, isNumberChar c = true := by
  intro c member
  cases e with
  | none => cases member
  | some e =>
    rcases List.mem_cons.mp member with rfl | later
    · decide
    · rcases List.mem_cons.mp later with rfl | digits
      · cases e.negative <;> decide
      · exact isNumberChar_texts _ c digits

theorem text_chars (n : Numeral) : ∃ c rest, n.text = c :: rest ∧ ((∃ d, c = Digit.char d) ∨ c = '-') ∧
    ∀ d ∈ rest, isNumberChar d = true := by
  rw [text_eq]
  have chars : ∀ c ∈ Text.ofNat n.whole ++ (fractionText n.fraction ++ exponentText n.exponent),
      isNumberChar c = true := by
    intro c member
    rcases List.mem_append.mp member with whole | later
    · exact isNumberChar_texts _ c whole
    · rcases List.mem_append.mp later with fraction | exponent
      · exact isNumberChar_fraction _ c fraction
      · exact isNumberChar_exponent _ c exponent
  cases n.negative
  · obtain ⟨d, rest, first⟩ := ofNat_first n.whole
    rw [first] at chars ⊢
    exact ⟨d.char, _, rfl, .inl ⟨d, rfl⟩, fun c member => chars c (List.mem_cons_of_mem _ member)⟩
  · exact ⟨'-', _, rfl, .inr rfl, chars⟩

end Reading

end FieldGateway.Json.Numeral
