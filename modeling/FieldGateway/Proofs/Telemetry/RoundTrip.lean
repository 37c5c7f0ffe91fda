import FieldGateway.Proofs.Binary.Narrowing
import FieldGateway.Proofs.Json.Document
import FieldGateway.Proofs.Telemetry.Quantity

-- A typed value that is written as JSON and read again for its type is the same value, apart
-- from a few that are named here.
namespace FieldGateway

open Json (Numeral)

variable {type : ValueType} {reading : Json} {v : Value} {n : Numeral}

theorem Finite.ofDecimal_zero {f : Format} {x : Finite f} (zero : x.mantissa = 0) (e : Int) :
    Binary.ofDecimal f x.negative 0 e = .finite x := by
  rw [Binary.ofDecimal_zero, Binary.ofRatio_zero]
  exact ⟨rfl, zero⟩

theorem Json.Numeral.coefficient_zero {s : Scientific} (layout : Layout) (negative : Bool) (empty : s.digits = []) :
    (ofScientific layout negative s).coefficient = 0 := by
  simp [ofScientific, empty, coefficient, Digit.zero]

theorem Finite.shortest_zero {f : Format} {x : Finite f} (zero : x.mantissa = 0) : x.shortest.digits = [] := by
  simp [shortest, zero]

theorem Json.Numeral.toInt?_ofDouble (x : Finite .double) : (ofDouble x).toInt? = none :=
  toInt?_ofScientific _ _ _

theorem Json.Numeral.toInt?_ofSingle (y : Finite .single) : (ofSingle y).toInt? = none :=
  toInt?_ofScientific _ _ _

theorem Json.Numeral.toBinary_ofDouble (x : Finite .double) : (ofDouble x).toBinary .double = .finite x := by
  have sign := negative_ofScientific .double x.negative x.shortest
  unfold toBinary ofDouble
  rw [sign]
  by_cases zero : x.mantissa = 0
  · rw [coefficient_zero _ _ (Finite.shortest_zero zero)]
    exact Finite.ofDecimal_zero zero _
  · exact Finite.ofDecimal_shortest Format.double_regular Format.double_reached (by decide) zero
      (value_ofScientific .double x.negative x.shortest)

theorem Json.Numeral.toBinary_ofSingle (y : Finite .single) :
    ∃ x, (ofSingle y).toBinary .double = .finite x ∧
      (x.exceeds .single = false ∧ Binary.convert .single (.finite x) = .finite y ↔ ¬ y.Misread) := by
  have sign := negative_ofScientific .single y.negative y.shortest
  unfold toBinary ofSingle
  rw [sign]
  by_cases zero : y.mantissa = 0
  · let x : Finite .double := ⟨y.negative, 0, -1074, by decide⟩
    refine ⟨x, ?_, ?_⟩
    · rw [coefficient_zero _ _ (Finite.shortest_zero zero)]
      exact x.ofDecimal_zero rfl _
    · have sound : ¬ y.Misread := by
        rintro (slips | largest)
        · rw [slips.1] at zero
          cases zero
        · rw [largest.1] at zero
          cases zero
      have small : x.exceeds .single = false := by simp [Finite.exceeds, Finite.numerator, x]
      have covers : y.Covers x.magnitude := by
        have none : x.magnitude = 0 := by simp [Finite.magnitude, x]
        rw [none]
        exact Binary.covers_zero_iff.mpr zero
      exact iff_of_true ⟨small, (Finite.convert_eq_iff x rfl).mpr covers⟩ sound
  · exact Finite.narrowed_iff zero (value_ofScientific .single y.negative y.shortest)

namespace Value

-- The values that are lost on the way: two singles and their negatives, and documents with
-- more open containers than the reader allows.
def Lossy : Value → Prop
  | .single (.finite y) => y.Misread
  | .object document => Json.deepest < document.depth
  | _ => False

theorem bind_parts {quantity : Except Misfit Quantity} {narrow : Quantity → Except Misfit Value}
    (coerced : quantity >>= narrow = .ok v) : ∃ q, quantity = .ok q ∧ narrow q = .ok v := by
  cases quantity with
  | error misfit => cases coerced
  | ok q => exact ⟨q, rfl, coerced⟩

theorem ofInteger_parts {type : IntegerType} (coerced : ofInteger type reading = .ok v) :
    ∃ i, ∃ within : type.Holds i, v = .integer type i within := by
  obtain ⟨quantity, _, narrowed⟩ := bind_parts coerced
  split at narrowed
  · split at narrowed
    · rename_i within
      cases narrowed
      exact ⟨_, within, rfl⟩
    · cases narrowed
  · cases narrowed

theorem ofDouble_parts (coerced : ofDouble reading = .ok v) : ∃ x, v = .double (.finite x) := by
  obtain ⟨quantity, _, checked⟩ := bind_parts coerced
  cases double : quantity.toDouble with
  | finite x =>
    rw [double] at checked
    cases checked
    exact ⟨x, rfl⟩
  | infinite negative | nan =>
    rw [double] at checked
    cases checked

theorem ofSingle_parts (coerced : ofSingle reading = .ok v) : ∃ y, v = .single (.finite y) := by
  obtain ⟨quantity, _, checked⟩ := bind_parts coerced
  cases double : quantity.toDouble with
  | finite x =>
    rw [double] at checked
    cases within : x.exceeds .single with
    | true => simp [Binary.isNan, Binary.exceeds, within] at checked
    | false =>
      obtain ⟨y, narrowed⟩ := Finite.convert_isFinite within
      simp only [Binary.isNan, Binary.exceeds, within, narrowed] at checked
      cases checked
      exact ⟨y, rfl⟩
  | infinite negative | nan =>
    rw [double] at checked
    cases checked

theorem ofBool_parts (coerced : ofBool reading = .ok v) : ∃ b, v = .bool b := by
  cases reading with
  | bool b | number n =>
    cases coerced
    exact ⟨_, rfl⟩
  | text t =>
    simp only [ofBool] at coerced
    split at coerced
    · cases coerced
      exact ⟨_, rfl⟩
    · split at coerced
      · cases coerced
        exact ⟨_, rfl⟩
      · cases coerced
  | null | array items | object fields => cases coerced

theorem ofText_parts (coerced : ofText reading = .ok v) : ∃ t, v = .text t := by
  cases reading with
  | bool b =>
    cases b <;> cases coerced <;> exact ⟨_, rfl⟩
  | number n | text t =>
    cases coerced
    exact ⟨_, rfl⟩
  | null | array items | object fields => cases coerced

theorem read?_number (n : Numeral) : Json.read? (Json.number n).render = some (.number n) := by
  have ordered : (Json.number n).Ordered := trivial
  rw [Json.read?_render _ ordered]
  rfl

theorem readsBack_double (x : Finite .double) : ofDouble (.ofDouble x) = .ok (.double (.finite x)) := by
  have quantity := Quantity.ofReading_real (Numeral.toInt?_ofDouble x) (Numeral.toBinary_ofDouble x)
  unfold ofDouble Json.ofDouble
  rw [quantity]
  rfl

theorem readsBack_integer {type : IntegerType} (within : type.Holds i) :
    ofInteger type (.ofInt i) = .ok (.integer type i within) := by
  have quantity := Quantity.ofReading_whole (Numeral.toInt?_ofInt i) within.fits.1 within.fits.2
  unfold ofInteger Json.ofInt
  rw [quantity]
  exact dif_pos within

theorem ofSingle_real_iff {x : Finite .double} {y : Finite .single} (real : n.toInt? = none)
    (double : n.toBinary .double = .finite x) : ofSingle (.number n) = .ok (.single (.finite y)) ↔
      x.exceeds .single = false ∧ Binary.convert .single (.finite x) = .finite y := by
  unfold ofSingle
  rw [Quantity.ofReading_real real double]
  simp only [bind, Except.bind, Quantity.toDouble, Binary.isNan, Binary.exceeds]
  by_cases beyond : x.exceeds .single = true
  · simp [beyond]
  · simp [beyond]

theorem readsBack_single (y : Finite .single) :
    ofSingle (.ofSingle (.finite y)) = .ok (.single (.finite y)) ↔ ¬ y.Misread := by
  obtain ⟨x, double, narrowed⟩ := Numeral.toBinary_ofSingle y
  rw [← narrowed]
  exact ofSingle_real_iff (Numeral.toInt?_ofSingle y) double

-- A value has the type it was coerced to. It is read back from its JSON exactly when it is
-- not one of the lossy ones.
theorem ofReading_readsBack (ordered : reading.Ordered) (coerced : ofReading type reading = .ok v) :
    v.type = type ∧ ((Json.read? v.toJson.render).map (ofReading type) = some (.ok v) ↔ ¬ v.Lossy) := by
  cases type with
  | bool =>
    obtain ⟨b, rfl⟩ := ofBool_parts coerced
    refine ⟨rfl, iff_of_true ?_ id⟩
    have ordered : (Json.bool b).Ordered := trivial
    rw [toJson, Json.read?_render _ ordered]
    rfl
  | text =>
    obtain ⟨t, rfl⟩ := ofText_parts coerced
    refine ⟨rfl, iff_of_true ?_ id⟩
    have ordered : (Json.text t).Ordered := trivial
    rw [toJson, Json.read?_render _ ordered]
    rfl
  | integer type =>
    obtain ⟨i, within, rfl⟩ := ofInteger_parts coerced
    refine ⟨rfl, iff_of_true ?_ id⟩
    rw [toJson, Json.ofInt, read?_number]
    exact congrArg some (readsBack_integer within)
  | single =>
    obtain ⟨y, rfl⟩ := ofSingle_parts coerced
    refine ⟨rfl, ?_⟩
    rw [toJson, Json.ofSingle, read?_number, Option.map_some, Option.some.injEq]
    exact readsBack_single y
  | double =>
    obtain ⟨x, rfl⟩ := ofDouble_parts coerced
    refine ⟨rfl, iff_of_true ?_ id⟩
    rw [toJson, Json.ofBinary, Json.ofDouble, read?_number]
    exact congrArg some (readsBack_double x)
  | object =>
    cases coerced
    refine ⟨rfl, ?_⟩
    rw [toJson, Json.read?_render _ ordered]
    by_cases shallow : reading.depth ≤ Json.deepest
    · rw [if_pos shallow]
      exact iff_of_true rfl (not_lt.mpr shallow)
    · rw [if_neg shallow]
      exact iff_of_false nofun (not_not.mpr (not_le.mp shallow))
  | other name => cases coerced

theorem ofReading_readsBack_fraction :
    ∃ v, ofReading .single (.number ⟨false, 1, [2, 5], none⟩) = .ok v ∧ v.type = .single ∧
      (Json.read? v.toJson.render).map (ofReading .single) = some (.ok v) := by
  let v : Value := .single (.finite ⟨false, 10485760, -23, by decide⟩)
  have ordered : (Json.number ⟨false, 1, [2, 5], none⟩).Ordered := trivial
  have coerced : ofReading .single (.number ⟨false, 1, [2, 5], none⟩) = .ok v := rfl
  obtain ⟨same, readsBack⟩ := ofReading_readsBack ordered coerced
  have sound : ¬ Finite.Misread ⟨false, 10485760, -23, by decide⟩ := by decide
  exact ⟨v, coerced, same, readsBack.mpr sound⟩

-- The largest single and the one that is rounded twice are accepted as readings and then lost.
theorem lossy_singles : ∃ largest slipped : Finite .single,
    ofReading .single (.number ⟨false, 340282346638528859811704183484516925440, [], none⟩) =
      .ok (.single (.finite largest)) ∧
      (Json.read? (toJson (.single (.finite largest))).render).map (ofReading .single) ≠
        some (.ok (.single (.finite largest))) ∧
    ofReading .single (.number ⟨false, 7, [0, 3, 8, 5, 3, 0, 6, 9, 1, 8, 5, 1, 2, 0, 9], some ⟨true, 2, [6]⟩⟩) =
        .ok (.single (.finite slipped)) ∧
      (Json.read? (toJson (.single (.finite slipped))).render).map (ofReading .single) ≠
        some (.ok (.single (.finite slipped))) := by
  have lost : ∀ y : Finite .single, y.Misread →
      (Json.read? (toJson (.single (.finite y))).render).map (ofReading .single) ≠
        some (.ok (.single (.finite y))) := by
    intro y misread readsBack
    rw [toJson, Json.ofSingle, read?_number, Option.map_some, Option.some.injEq] at readsBack
    exact (readsBack_single y).mp readsBack misread
  exact ⟨⟨false, 16777215, 104, by decide⟩, ⟨false, 11420669, -107, by decide⟩, rfl, lost _ (by decide), rfl,
    lost _ (by decide)⟩

end Value

end FieldGateway
