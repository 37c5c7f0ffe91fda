import FieldGateway.Proofs.Binary.Whole
import FieldGateway.Proofs.Telemetry.Quantity

-- An integer reading is coerced to an integer type exactly, or it is refused because it is out
-- of range. Numerals just below the least signed integer are the exception.
namespace FieldGateway

open Json (Numeral)

-- An integer as a reading gives it: a numeral with neither point nor exponent, or a text of its
-- digits with an optional sign and with blanks around them.
inductive Json.Spells : Json → Int → Prop where
  | literal (whole : Numeral.toInt? n = some i) : Spells (.number n) i
  | text (before after : Text) (sign : Option Bool) (digits : List Digit) (present : digits ≠ [])
      (blankBefore : ∀ c ∈ before, Text.isBlank c = true) (blankAfter : ∀ c ∈ after, Text.isBlank c = true) :
      Spells (.text (before ++ (signText sign ++ Digit.texts digits) ++ after)) (signedValue sign digits)

-- Below the least signed integer of 64 bits, but nearer to it than to the next double.
def Near (i : Int) : Prop := i64Least - 1024 ≤ i ∧ i < i64Least

theorem Near.inside (near : Near i) : -i128Greatest ≤ i ∧ i ≤ i128Greatest := by
  unfold Near at near
  simp only [i64Least, i128Greatest] at near ⊢
  omega

theorem IntegerType.holds_least_iff {type : IntegerType} : type.Holds i64Least ↔ type = .int64 := by
  cases type <;> decide

def RoundsUp (type : IntegerType) (reading : Json) (i : Int) : Prop :=
  type = .int64 ∧ (∃ n, reading = .number n) ∧ Near i

variable {x : Finite .double} {reading : Json} {type : IntegerType} {i : Int}

theorem Finite.truncated_beyond (covers : x.Covers i.natAbs) (sign : x.negative = decide (i < 0))
    (beyond : ¬ (i64Least ≤ i ∧ i ≤ u64Greatest)) (far : ¬ Near i) :
    ¬ (i64Least ≤ x.truncated ∧ x.truncated ≤ u64Greatest) := by
  unfold Near at far
  rw [truncated_eq, sign]
  simp only [i64Least, u64Greatest] at beyond far ⊢
  by_cases negative : i < 0
  · -- The whole part is at least the 63rd power of two, and not equal to it.
    have large : 2 ^ 63 ≤ i.natAbs := by omega
    have bound := covers.power_le (k := 11) (by decide) large
    have different : x.whole ≠ 2 ^ 63 := by
      rw [ne_eq, covers.whole_eq_iff large]
      omega
    simp only [negative, decide_true, if_true]
    omega
  · have large : 2 ^ 64 ≤ i.natAbs := by omega
    have bound := covers.power_le (k := 12) (by decide) large
    simp only [negative, decide_false, Bool.false_eq_true, if_false]
    omega

theorem Json.Numeral.parts_of_beyond {n : Numeral} (whole : n.toInt? = some i) (beyond : ¬ (i64Least ≤ i ∧ i ≤ u64Greatest)) :
    i.natAbs = n.whole ∧ n.negative = decide (i < 0) := by
  obtain ⟨_, _, value⟩ := toInt?_parts whole
  simp only [i64Least, u64Greatest] at beyond
  cases negative : n.negative with
  | true =>
    rw [negative, if_pos rfl] at value
    exact ⟨by omega, by rw [eq_comm, decide_eq_true_eq]; omega⟩
  | false =>
    rw [negative, if_neg (by decide)] at value
    exact ⟨by omega, by rw [eq_comm, decide_eq_false_iff_not]; omega⟩

theorem Finite.truncated_near (near : Near i) : (Finite.power (decide (i < 0)) 11 (by decide)).truncated = i64Least := by
  have negative : i < 0 := lt_trans near.2 (by decide)
  rw [truncated_eq, power_whole]
  simp only [power, negative, decide_true, if_true]
  rfl

theorem ofDecimal_near (near : Near i) :
    Binary.ofDecimal .double (decide (i < 0)) i.natAbs 0 = .finite (Finite.power (decide (i < 0)) 11 (by decide)) := by
  unfold Near at near
  simp only [i64Least] at near
  exact Binary.ofDecimal_near _ (by omega) (by omega)

namespace Quantity

theorem ofReading_text {before after : Text} {digits : List Digit} (sign : Option Bool) (present : digits ≠ [])
    (blankBefore : ∀ c ∈ before, Text.isBlank c = true) (blankAfter : ∀ c ∈ after, Text.isBlank c = true) :
    ofReading (.text (before ++ (signText sign ++ Digit.texts digits) ++ after)) =
      if (Digit.value digits : Int) ≤ i128Greatest then .ok (.whole (signedValue sign digits))
      else .ok (.real (Binary.ofDecimal .double (decide (sign = some true)) (Digit.value digits) 0)) := by
  have solid : ∀ c ∈ signText sign ++ Digit.texts digits, Text.isBlank c = false := by
    intro c member
    rcases List.mem_append.mp member with mark | digit
    · match sign with
      | some true | some false =>
        rw [List.mem_singleton.mp mark]
        decide
    · obtain ⟨d, _, rfl⟩ := List.mem_map.mp digit
      exact Text.isBlank_char d
  unfold ofReading
  simp only [Text.trim_padded blankBefore blankAfter solid, read?_digits sign present]
  by_cases fits : (Digit.value digits : Int) ≤ i128Greatest
  · simp only [if_pos fits]
  · simp only [if_neg fits]

theorem ofReading_text_fits {t : Text} (spells : Json.Spells (.text t) i) (fits : -i128Greatest ≤ i ∧ i ≤ i128Greatest) :
    ofReading (.text t) = .ok (.whole i) := by
  cases spells with
  | text before after sign digits present blankBefore blankAfter =>
    rw [ofReading_text sign present blankBefore blankAfter, if_pos]
    unfold signedValue at fits
    split at fits
    · omega
    · exact fits.2

theorem ofReading_fits (spells : reading.Spells i) (fits : i64Least ≤ i ∧ i ≤ u64Greatest) :
    ofReading reading = .ok (.whole i) := by
  cases spells with
  | literal whole => exact ofReading_whole whole fits.1 fits.2
  | text before after sign digits present blankBefore blankAfter =>
    refine ofReading_text_fits (.text before after sign digits present blankBefore blankAfter) ?_
    have least : -i128Greatest ≤ i64Least := by decide
    have greatest : (u64Greatest : Int) ≤ i128Greatest := by decide
    exact ⟨least.trans fits.1, fits.2.trans greatest⟩

theorem ofReading_near {n : Numeral} (whole : n.toInt? = some i) (near : Near i) :
    ∃ x, ofReading (.number n) = .ok (.real (.finite x)) ∧ x.truncated = i64Least := by
  have beyond : ¬ (i64Least ≤ i ∧ i ≤ u64Greatest) := fun fits => absurd near.2 (not_lt.mpr fits.1)
  obtain ⟨magnitude, sign⟩ := Numeral.parts_of_beyond whole beyond
  refine ⟨_, ?_, Finite.truncated_near near⟩
  rw [ofReading_beyond whole beyond, ← magnitude, sign, ofDecimal_near near]

theorem signedValue_parts (sign : Option Bool) (large : ¬ (Digit.value digits : Int) ≤ i128Greatest) :
    (signedValue sign digits).natAbs = Digit.value digits ∧
      decide (sign = some true) = decide (signedValue sign digits < 0) := by
  simp only [i128Greatest] at large
  unfold signedValue
  by_cases minus : sign = some true
  · simp only [minus, if_true, decide_true]
    exact ⟨by omega, by rw [eq_comm, decide_eq_true_eq]; omega⟩
  · simp only [minus, if_false, decide_false]
    exact ⟨by omega, by rw [eq_comm, decide_eq_false_iff_not]; omega⟩

theorem toInt?_rounded (beyond : ¬ (i64Least ≤ i ∧ i ≤ u64Greatest)) (far : ¬ Near i)
    (cut : Quantity.toInt? (.real (Binary.ofDecimal .double (decide (i < 0)) i.natAbs 0)) = some j) :
    ¬ (i64Least ≤ j ∧ j ≤ u64Greatest) := by
  cases read : Binary.ofDecimal .double (decide (i < 0)) i.natAbs 0 with
  | finite x =>
    obtain ⟨sign, covers⟩ := Binary.covers_of_ofDecimal Format.double_regular read
    rw [read] at cut
    cases cut
    exact Finite.truncated_beyond covers sign beyond far
  | infinite negative =>
    rw [read] at cut
    cases cut
  | nan =>
    rw [read] at cut
    cases cut

theorem toInt?_far {q : Quantity} (spells : reading.Spells i) (beyond : ¬ (i64Least ≤ i ∧ i ≤ u64Greatest))
    (far : ¬ Near i) (quantity : ofReading reading = .ok q) (cut : q.toInt? = some j) :
    ¬ (i64Least ≤ j ∧ j ≤ u64Greatest) := by
  cases spells with
  | literal whole =>
    obtain ⟨magnitude, sign⟩ := Numeral.parts_of_beyond whole beyond
    rw [ofReading_beyond whole beyond, ← magnitude, sign] at quantity
    refine toInt?_rounded beyond far ?_
    split at quantity
    · rename_i read
      cases quantity
      rwa [read]
    · cases quantity
  | text before after sign digits present blankBefore blankAfter =>
    rw [ofReading_text sign present blankBefore blankAfter] at quantity
    split at quantity
    · cases quantity
      cases cut
      exact beyond
    · rename_i large
      cases quantity
      obtain ⟨magnitude, negative⟩ := signedValue_parts sign large
      rw [← magnitude, negative] at cut
      exact toInt?_rounded beyond far cut

end Quantity

namespace Value

theorem ofInteger_accepted {q : Quantity} (quantity : Quantity.ofReading reading = .ok q) (cut : q.toInt? = some i)
    (within : type.Holds i) : ofInteger type reading = .ok (.integer type i within) := by
  unfold ofInteger
  simp only [quantity, bind, Except.bind, cut]
  exact dif_pos within

theorem ofInteger_refused
    (outside : ∀ q j, Quantity.ofReading reading = .ok q → Quantity.toInt? q = some j → ¬ type.Holds j) :
    ∃ misfit, ofInteger type reading = .error misfit := by
  unfold ofInteger
  cases quantity : Quantity.ofReading reading with
  | error misfit => exact ⟨misfit, rfl⟩
  | ok q =>
    simp only [bind, Except.bind]
    split
    · rename_i j cut
      exact ⟨_, dif_neg (outside q j quantity cut)⟩
    · exact ⟨_, rfl⟩

theorem refuses {q : Quantity} (spells : reading.Spells i) (outside : ¬ type.Holds i)
    (regular : ¬ RoundsUp type reading i) (quantity : Quantity.ofReading reading = .ok q) (cut : q.toInt? = some j) :
    ¬ type.Holds j := by
  intro within
  by_cases fits : i64Least ≤ i ∧ i ≤ u64Greatest
  · rw [Quantity.ofReading_fits spells fits] at quantity
    cases quantity
    cases cut
    exact outside within
  · by_cases near : Near i
    · cases spells with
      | literal whole =>
        obtain ⟨x, rounded, least⟩ := Quantity.ofReading_near whole near
        rw [rounded] at quantity
        cases quantity
        rw [Quantity.toInt?, least] at cut
        cases cut
        exact regular ⟨IntegerType.holds_least_iff.mp within, ⟨_, rfl⟩, near⟩
      | text before after sign digits present blankBefore blankAfter =>
        have exactly := Quantity.ofReading_text_fits
          (.text before after sign digits present blankBefore blankAfter) near.inside
        rw [exactly] at quantity
        cases quantity
        cases cut
        exact outside within
    · exact Quantity.toInt?_far spells fits near quantity cut within.fits

theorem unsupported_of_misfit {type : ValueType} (misfits : ofReading type reading = .error misfit) (name : Text)
    (stamp : Int) : ∃ fault, Telemetry.ofReading name type stamp reading = .error fault ∧ fault.kind = .unsupportedValue := by
  unfold Telemetry.ofReading
  rw [misfits]
  exact ⟨_, rfl, rfl⟩

-- An integer is stored exactly when it is in the range of its type, and is unsupported
-- otherwise, unless it is a literal that rounds up to the least signed integer.
theorem ofReading_spelled (spells : reading.Spells i) :
    (∀ within : type.Holds i, ofReading (.integer type) reading = .ok (.integer type i within)) ∧
    (RoundsUp type reading i → ofReading (.integer type) reading = .ok (.integer .int64 i64Least (by decide))) ∧
    (¬ type.Holds i → ¬ RoundsUp type reading i →
      (∃ misfit, ofReading (.integer type) reading = .error misfit) ∧
      ∀ name stamp, ∃ fault, Telemetry.ofReading name (.integer type) stamp reading = .error fault ∧
        fault.kind = .unsupportedValue) := by
  refine ⟨fun within => ?_, ?_, fun outside regular => ?_⟩
  · exact ofInteger_accepted (Quantity.ofReading_fits spells within.fits) rfl within
  · rintro ⟨rfl, ⟨n, rfl⟩, near⟩
    cases spells with
    | literal whole =>
      obtain ⟨x, quantity, cut⟩ := Quantity.ofReading_near whole near
      exact ofInteger_accepted quantity (congrArg some cut) (by decide)
  · obtain ⟨misfit, refused⟩ := ofInteger_refused fun q j quantity cut => refuses spells outside regular quantity cut
    exact ⟨⟨misfit, refused⟩, unsupported_of_misfit refused⟩

theorem ofReading_spelled_padded :
    ofReading (.integer .int8) (.text [' ', '-', '1', '2', '8', '\n']) = .ok (.integer .int8 (-128) (by decide)) ∧
    ∃ misfit, ofReading (.integer .uint8) (.number ⟨false, 256, [], none⟩) = .error misfit := by
  have padded : Json.Spells (.text [' ', '-', '1', '2', '8', '\n']) (-128) :=
    .text [' '] ['\n'] (some true) [1, 2, 8] (by decide) (List.forall_mem_singleton.mpr (by decide))
      (List.forall_mem_singleton.mpr (by decide))
  have literal : Json.Spells (.number ⟨false, 256, [], none⟩) 256 := .literal rfl
  refine ⟨(ofReading_spelled padded).1 (by decide), ((ofReading_spelled literal).2.2 (by decide) ?_).1⟩
  rintro ⟨wrong, _⟩
  cases wrong

-- One below the least signed integer, written as a literal.
theorem literal_rounded_up : Json.Spells (.number ⟨true, 9223372036854775809, [], none⟩) (-9223372036854775809) ∧
    ¬ IntegerType.Holds .int64 (-9223372036854775809) ∧
    ofReading (.integer .int64) (.number ⟨true, 9223372036854775809, [], none⟩) =
      .ok (.integer .int64 (-9223372036854775808) (by decide)) :=
  ⟨.literal rfl, by decide, rfl⟩

end Value
end FieldGateway
