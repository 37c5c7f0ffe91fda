import FieldGateway.Proofs.Telemetry.Integer
import FieldGateway.Proofs.Telemetry.RoundTrip
import FieldGateway.Proofs.Text.Natural
import FieldGateway.Proofs.Text.Pieces

-- Texts in base sixteen are coerced to integer types exactly, or refused. A sign may stand in
-- front of the mark; one that stands behind it is taken as well.
namespace FieldGateway

def withSign (sign : Option Bool) (i : Int) : Int := if sign = some true then -i else i

def Marked (given : Text) (sign : Option Bool) (body : Text) : Prop :=
  ∃ mark, (mark = 'x' ∨ mark = 'X') ∧ Text.trim given = signText sign ++ '0' :: mark :: body

variable {base : Nat} {least greatest i : Int} {sign : Option Bool} {given t body digits : Text} {type : IntegerType}

theorem Text.signed?_signText (sign : Option Bool) (read : natural? base digits = some n) :
    signed? base least greatest (signText sign ++ digits) =
      if least ≤ withSign sign n ∧ withSign sign n ≤ greatest then some (withSign sign n) else none := by
  match sign with
  | some true | some false => simp [signed?, signText, after?, read, withSign]
  | none =>
    obtain ⟨c, rest, rfl, plus, minus⟩ := natural?_unsigned read
    simp [signed?, signText, after?, read, withSign, Ne.symm plus, Ne.symm minus]

theorem Text.signed?_parts (read : signed? base least greatest t = some i) :
    ∃ sign digits n, t = signText sign ++ digits ∧ natural? base digits = some n := by
  unfold signed? at read
  cases minus : after? ['-'] t with
  | some digits =>
    cases natural : natural? base digits with
    | none => simp [minus, natural] at read
    | some n => exact ⟨some true, digits, n, after?_eq_some_iff.mp minus, natural⟩
  | none =>
    cases plus : after? ['+'] t with
    | some digits =>
      cases natural : natural? base digits with
      | none => simp [minus, plus, natural] at read
      | some n => exact ⟨some false, digits, n, after?_eq_some_iff.mp plus, natural⟩
    | none =>
      cases natural : natural? base t with
      | none => simp [minus, plus, natural] at read
      | some n => exact ⟨none, t, n, rfl, natural⟩

theorem Text.signed?_eq_some_iff : signed? base least greatest t = some i ↔
    ∃ sign digits n, t = signText sign ++ digits ∧ natural? base digits = some n ∧ i = withSign sign n ∧
      least ≤ i ∧ i ≤ greatest := by
  constructor
  · intro read
    obtain ⟨sign, digits, n, rfl, natural⟩ := signed?_parts read
    rw [signed?_signText sign natural] at read
    split at read
    · rename_i inside
      cases read
      exact ⟨sign, digits, n, rfl, natural, rfl, inside⟩
    · cases read
  · rintro ⟨sign, digits, n, rfl, natural, rfl, inside⟩
    rw [signed?_signText sign natural, if_pos inside]

theorem signedWhole?_eq_some_iff : signedWhole? (decide (sign = some true)) i = some q ↔
    (i128Least ≤ withSign sign i ∧ withSign sign i ≤ i128Greatest) ∧ q = .whole (withSign sign i) := by
  simp [signedWhole?, withSign, eq_comm (a := q)]

-- Both signs count, the one in front of the mark and the one behind it.
theorem wholeText?_eq_some_iff : wholeText? (decide (sign = some true)) base body = some q ↔
    ∃ j, Text.signed? base i128Least i128Greatest body = some j ∧
      (i128Least ≤ withSign sign j ∧ withSign sign j ≤ i128Greatest) ∧ q = .whole (withSign sign j) := by
  unfold wholeText?
  rw [Option.bind_eq_some_iff]
  simp only [signedWhole?_eq_some_iff]

theorem splitSign_marked (sign : Option Bool) (rest : Text) :
    splitSign (signText sign ++ '0' :: rest) = (decide (sign = some true), '0' :: rest) := by
  match sign with
  | some true | some false | none => rfl

theorem Quantity.read?_marked (sign : Option Bool) (marks : mark = 'x' ∨ mark = 'X') (body : Text) :
    Quantity.read? (signText sign ++ '0' :: mark :: body) = wholeText? (decide (sign = some true)) 16 body := by
  have split := splitSign_marked sign (mark :: body)
  unfold Quantity.read?
  rcases marks with rfl | rfl
  · simp only [split]
    rfl
  · simp only [split]
    rfl

theorem Quantity.ofReading_marked (form : Marked given sign body) :
    ofReading (.text given) = .ok q ↔ wholeText? (decide (sign = some true)) 16 body = some q := by
  obtain ⟨mark, marks, trimmed⟩ := form
  unfold ofReading
  simp only [trimmed, read?_marked sign marks]
  cases wholeText? (decide (sign = some true)) 16 body <;> simp

theorem IntegerType.Holds.wide (holds : type.Holds (withSign sign i)) :
    (i128Least ≤ i ∧ i ≤ i128Greatest) ∧ i128Least ≤ withSign sign i ∧ withSign sign i ≤ i128Greatest := by
  have fits := holds.fits
  unfold withSign at fits ⊢
  simp only [i64Least, u64Greatest, i128Least, i128Greatest] at fits ⊢
  split at fits
  · rename_i minus
    rw [if_pos minus]
    omega
  · rename_i plus
    rw [if_neg plus]
    omega

namespace Value

theorem ofInteger_marked (form : Marked given sign body) : ofInteger type (.text given) = .ok v ↔
    ∃ inner digits n, body = signText inner ++ digits ∧ Text.Hexadecimal digits n ∧
      ∃ within : type.Holds (withSign sign (withSign inner n)), v = .integer type _ within := by
  constructor
  · intro accepted
    obtain ⟨q, quantity, narrowed⟩ := bind_parts accepted
    obtain ⟨j, whole, _, rfl⟩ := wholeText?_eq_some_iff.mp ((Quantity.ofReading_marked form).mp quantity)
    obtain ⟨inner, digits, n, split, natural, rfl, _⟩ := Text.signed?_eq_some_iff.mp whole
    simp only [Quantity.toInt?] at narrowed
    split at narrowed
    · rename_i within
      cases narrowed
      exact ⟨inner, digits, n, split, Text.natural?_eq_some_iff.mp natural, within, rfl⟩
    · cases narrowed
  · rintro ⟨inner, digits, n, split, hexadecimal, within, rfl⟩
    have natural := Text.natural?_eq_some_iff.mpr hexadecimal
    have whole := Text.signed?_eq_some_iff.mpr ⟨inner, digits, n, split, natural, rfl, within.wide.1⟩
    have read := wholeText?_eq_some_iff.mpr ⟨_, whole, within.wide.2, rfl⟩
    exact ofInteger_accepted ((Quantity.ofReading_marked form).mpr read) rfl within

theorem hexadecimal_unsigned (hexadecimal : Text.Hexadecimal t n) : ∀ c ∈ t.head?, c ≠ '+' ∧ c ≠ '-' := by
  obtain ⟨c, rest, rfl, plus, minus⟩ := Text.natural?_unsigned (Text.natural?_eq_some_iff.mpr hexadecimal)
  intro d first
  cases first
  exact ⟨plus, minus⟩

-- A body of digits alone is coerced to its number with the sign in front, when that is in range.
-- A body that begins with a sign of its own is taken with both signs. Nothing else is accepted.
theorem ofReading_hexadecimal (form : Marked given sign body) :
    ((∀ c ∈ body.head?, c ≠ '+' ∧ c ≠ '-') → ∀ v, ofReading (.integer type) (.text given) = .ok v ↔
      ∃ n, Text.Hexadecimal body n ∧ ∃ within : type.Holds (withSign sign n), v = .integer type _ within) ∧
    (∀ minus digits, body = signText (some minus) ++ digits → ∀ v, ofReading (.integer type) (.text given) = .ok v ↔
      ∃ n, Text.Hexadecimal digits n ∧
        ∃ within : type.Holds (withSign sign (withSign (some minus) n)), v = .integer type _ within) ∧
    ((∀ v, ofReading (.integer type) (.text given) ≠ .ok v) →
      (∃ misfit, ofReading (.integer type) (.text given) = .error misfit) ∧
      ∀ name stamp, ∃ fault, Telemetry.ofReading name (.integer type) stamp (.text given) = .error fault ∧
        fault.kind = .unsupportedValue) := by
  refine ⟨fun unsigned v => ?_, ?_, fun refused => ?_⟩
  · refine (ofInteger_marked form).trans ⟨?_, ?_⟩
    · rintro ⟨inner, digits, n, split, hexadecimal, within, rfl⟩
      match inner with
      | none =>
        cases split
        exact ⟨n, hexadecimal, within, rfl⟩
      | some true =>
        rw [split] at unsigned
        exact absurd rfl (unsigned '-' rfl).2
      | some false =>
        rw [split] at unsigned
        exact absurd rfl (unsigned '+' rfl).1
    · rintro ⟨n, hexadecimal, within, rfl⟩
      exact ⟨none, body, n, rfl, hexadecimal, within, rfl⟩
  · rintro minus digits rfl v
    refine (ofInteger_marked form).trans ⟨?_, ?_⟩
    · rintro ⟨inner, rest, n, split, hexadecimal, within, rfl⟩
      have unsigned := hexadecimal_unsigned hexadecimal
      match minus, inner with
      | true, some true | false, some false =>
        cases split
        exact ⟨n, hexadecimal, within, rfl⟩
      | true, some false | false, some true => cases split
      | true, none =>
        cases split
        exact absurd rfl (unsigned '-' rfl).2
      | false, none =>
        cases split
        exact absurd rfl (unsigned '+' rfl).1
    · rintro ⟨n, hexadecimal, within, rfl⟩
      exact ⟨some minus, digits, n, rfl, hexadecimal, within, rfl⟩
  · cases coerced : ofReading (.integer type) (.text given) with
    | ok v => exact absurd coerced (refused v)
    | error misfit => exact ⟨⟨misfit, rfl⟩, unsupported_of_misfit coerced⟩

theorem ofReading_hexadecimal_padded :
    ofReading (.integer .int16) (.text [' ', '-', '0', 'x', 'F', 'f', '\n']) =
      .ok (.integer .int16 (-255) (by decide)) ∧
    ∃ misfit, ofReading (.integer .int16) (.text ['0', 'X', '1', '_', '0']) = .error misfit := by
  have padded : Marked [' ', '-', '0', 'x', 'F', 'f', '\n'] (some true) ['F', 'f'] := ⟨'x', .inl rfl, rfl⟩
  have parted : Marked ['0', 'X', '1', '_', '0'] none ['1', '_', '0'] := ⟨'X', .inr rfl, rfl⟩
  constructor
  · have hexadecimal : Text.Hexadecimal ['F', 'f'] 255 := Text.natural?_eq_some_iff.mp rfl
    exact ((ofReading_hexadecimal padded).1 (hexadecimal_unsigned hexadecimal) _).mpr ⟨255, hexadecimal, by decide, rfl⟩
  · have unsigned : ∀ c ∈ List.head? ['1', '_', '0'], c ≠ '+' ∧ c ≠ '-' := by
      intro c first
      cases first
      decide
    refine ((ofReading_hexadecimal parted).2.2 fun v accepted => ?_).1
    obtain ⟨n, hexadecimal, _⟩ := ((ofReading_hexadecimal parted).1 unsigned v).mp accepted
    cases Text.natural?_eq_some_iff.mpr hexadecimal

-- Two signs make a plus, although a body with a sign in it has more than digits.
theorem sign_behind_mark : Marked ['-', '0', 'x', '-', '1', '0'] (some true) ['-', '1', '0'] ∧
    (¬ ∃ n, Text.Hexadecimal ['-', '1', '0'] n) ∧
    ofReading (.integer .int8) (.text ['-', '0', 'x', '-', '1', '0']) = .ok (.integer .int8 16 (by decide)) := by
  refine ⟨⟨'x', .inl rfl, rfl⟩, ?_, rfl⟩
  rintro ⟨n, hexadecimal⟩
  cases Text.natural?_eq_some_iff.mpr hexadecimal

end Value
end FieldGateway
