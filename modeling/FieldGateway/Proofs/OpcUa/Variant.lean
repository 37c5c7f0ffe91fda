import FieldGateway.OpcUa.Variant
import FieldGateway.Proofs.Telemetry.Integer
import FieldGateway.Proofs.Telemetry.RoundTrip

-- A value that a server sends arrives as it is under the type that belongs to it, and what is no
-- single value is refused under every type but that of whole documents.
namespace FieldGateway

namespace Finite

variable {f : Format}

theorem covers_magnitude (x : Finite f) : x.Covers x.magnitude := covers_of_lt x.lower_lt x.lt_upper

theorem exists_widened (y : Finite .single) : ∃ x : Finite .double, Binary.convert .double (.finite y) = .finite x ∧
    x.negative = y.negative ∧ x.magnitude = y.magnitude := by
  obtain ⟨mantissa, low, high⟩ := y.single_bounds
  obtain ⟨z, same⟩ := exists_double y.mantissa (by omega) y.exponent (by omega) (by omega)
  let x : Finite .double := ⟨y.negative, z.mantissa, z.exponent, z.canonical⟩
  have equal : x.magnitude = y.magnitude := same
  refine ⟨x, ?_, rfl, equal⟩
  refine (Binary.ofRatio_eq_finite_iff Format.double_regular y.denominator_pos).mpr ⟨rfl, ?_⟩
  rw [← magnitude_eq_ratio, ← equal]
  exact x.covers_magnitude

theorem widened_narrowed (y : Finite .single) : ∃ x, Binary.convert .double (.finite y) = .finite x ∧
    x.exceeds .single = false ∧ Binary.convert .single (.finite x) = .finite y := by
  obtain ⟨x, widened, sign, same⟩ := y.exists_widened
  refine ⟨x, widened, ?_, (convert_eq_iff x sign).mpr (same ▸ y.covers_magnitude)⟩
  rw [Bool.eq_false_iff, ne_eq, exceeds_single_iff, not_lt, same]
  exact_mod_cast y.magnitude_le_largest

end Finite

namespace Value

variable {reading : Json} {type : ValueType}

-- A single is widened before it is written, so its own numeral never stands in a reading of a
-- server. What is read is the double, and that is the single again.
theorem ofSingle_widened (y : Finite .single) :
    ofSingle (.ofBinary (Binary.convert .double (.finite y))) = .ok (.single (.finite y)) := by
  obtain ⟨x, widened, within⟩ := y.widened_narrowed
  rw [widened]
  exact (ofSingle_real_iff (Json.Numeral.toInt?_ofDouble x) (Json.Numeral.toBinary_ofDouble x)).mpr within

theorem ofReading_null (narrow : type ≠ .object) : ∃ misfit, ofReading type .null = .error misfit := by
  cases type with
  | object => exact absurd rfl narrow
  | bool | text | integer type | single | double | other name => exact ⟨_, rfl⟩

theorem ofReading_array (items : List Json) (narrow : type ≠ .object) :
    ∃ misfit, ofReading type (.array items) = .error misfit := by
  cases type with
  | object => exact absurd rfl narrow
  | bool | text | integer type | single | double | other name => exact ⟨_, rfl⟩

end Value

namespace OpcUa.Variant

variable {v : Variant} {value : Value} {type : ValueType}

def carried? : Variant → Option Value
  | .bool b => some (.bool b)
  | .integer type i within => some (.integer type i within)
  | .single (.finite y) => some (.single (.finite y))
  | .double (.finite x) => some (.double (.finite x))
  | .text t => some (.text (t.getD []))
  | _ => none

inductive Unreadable : Variant → Prop where
  | empty : Unreadable .empty
  | array (items : List Variant) : Unreadable (.array items)
  | single (beyond : ∀ y, x ≠ .finite y) : Unreadable (.single x)
  | double (beyond : ∀ y, x ≠ .finite y) : Unreadable (.double x)

theorem reading_carried (carries : v.carried? = some value) : Value.ofReading value.type v.reading = .ok value := by
  cases v with
  | bool b | text t =>
    cases carries
    rfl
  | integer type i within =>
    cases carries
    exact Value.readsBack_integer within
  | single y =>
    cases y with
    | finite y =>
      cases carries
      exact Value.ofSingle_widened y
    | infinite negative | nan => cases carries
  | double x =>
    cases x with
    | finite x =>
      cases carries
      exact Value.readsBack_double x
    | infinite negative | nan => cases carries
  | empty | moment m | guid g | bytes bs | array items | described t => cases carries

theorem reading_unreadable (unreadable : v.Unreadable) : v.reading = .null ∨ ∃ items, v.reading = .array items := by
  cases unreadable with
  | empty => exact .inl rfl
  | array items => exact .inr ⟨_, by rw [reading]⟩
  | single beyond =>
    rename_i x
    cases x with
    | finite y => exact absurd rfl (beyond y)
    | infinite negative | nan => exact .inl (by rw [reading]; rfl)
  | double beyond =>
    rename_i x
    cases x with
    | finite y => exact absurd rfl (beyond y)
    | infinite negative | nan => exact .inl (by rw [reading]; rfl)

theorem refused (unreadable : v.Unreadable) (narrow : type ≠ .object) :
    ∃ misfit, Value.ofReading type v.reading = .error misfit := by
  rcases reading_unreadable unreadable with nothing | ⟨items, several⟩
  · rw [nothing]
    exact Value.ofReading_null narrow
  · rw [several]
    exact Value.ofReading_array items narrow

-- A value arrives under its own type as the server sent it. What is no single value is
-- unsupported whatever the type, unless whole documents are taken.
theorem arrives_unchanged (v : Variant) :
    (∀ value, v.carried? = some value → Value.ofReading value.type v.reading = .ok value) ∧
    (v.Unreadable → ∀ type, type ≠ .object →
      (∃ misfit, Value.ofReading type v.reading = .error misfit) ∧
      ∀ name stamp, ∃ fault, Telemetry.ofReading name type stamp v.reading = .error fault ∧
        fault.kind = .unsupportedValue) := by
  refine ⟨fun value carries => reading_carried carries, fun unreadable type narrow => ?_⟩
  obtain ⟨misfit, misfits⟩ := refused unreadable narrow
  exact ⟨⟨misfit, misfits⟩, Value.unsupported_of_misfit misfits⟩

theorem arrives_unchanged_extremes : ∃ (largest : Finite .single) (zero : Finite .double),
    (largest.mantissa = 16777215 ∧ largest.exponent = 104) ∧ (zero.mantissa = 0 ∧ zero.negative = true) ∧
    Value.ofReading .single (reading (.single (.finite largest))) =
      .ok (.single (.finite largest)) ∧
    Value.ofReading .double (reading (.double (.finite zero))) = .ok (.double (.finite zero)) ∧
    Value.ofReading (.integer .uint64) (reading (.integer .uint64 18446744073709551615 (by decide))) =
      .ok (.integer .uint64 18446744073709551615 (by decide)) ∧
    (∃ misfit, Value.ofReading .text (reading (.array [.bool true])) = .error misfit) ∧
    ∃ misfit, Value.ofReading .double (reading (.single (.infinite true))) = .error misfit := by
  let largest : Finite .single := ⟨false, 16777215, 104, by decide⟩
  let zero : Finite .double := ⟨true, 0, -1074, by decide⟩
  have greatest : IntegerType.uint64.Holds 18446744073709551615 := by decide
  refine ⟨largest, zero, ⟨rfl, rfl⟩, ⟨rfl, rfl⟩, ?_, ?_, ?_, ?_, ?_⟩
  · exact (arrives_unchanged (.single (.finite largest))).1 (.single (.finite largest)) rfl
  · exact (arrives_unchanged (.double (.finite zero))).1 (.double (.finite zero)) rfl
  · exact (arrives_unchanged (.integer .uint64 _ greatest)).1 (.integer .uint64 _ greatest) rfl
  · exact ((arrives_unchanged (.array [.bool true])).2 (.array _) .text nofun).1
  · have infinite : Unreadable (.single (.infinite true)) := .single fun y same => by cases same
    exact ((arrives_unchanged _).2 infinite .double nofun).1

end OpcUa.Variant

end FieldGateway
