import FieldGateway.Json.Guess
import FieldGateway.Proofs.Json.Document
import FieldGateway.Proofs.Telemetry.RoundTrip

-- What a property bag keeps of a document stays as it is when it is kept again, and has the
-- document's shape: only numerals change.
namespace FieldGateway.Json

namespace Numeral

variable {n : Numeral}

theorem guess_ofInt (low : i64Least ≤ i) (high : i ≤ u64Greatest) : (ofInt i).guess = .integer i := by
  simp [guess, toInt?_ofInt, low, high]

theorem guess_ofDouble (x : Finite .double) : (ofDouble x).guess = .real x := by
  simp [guess, guess.guessReal, toInt?_ofDouble, toDouble?, toBinary_ofDouble]

theorem guessReal_ne_integer : guess.guessReal n ≠ .integer i := by
  unfold guess.guessReal
  split
  · split <;> exact nofun
  · exact nofun

theorem guess_integer (integer : n.guess = .integer i) : i64Least ≤ i ∧ i ≤ u64Greatest := by
  unfold guess at integer
  split at integer
  · split at integer
    · rename_i fits
      cases integer
      exact fits
    · split at integer
      · cases integer
      · exact absurd integer guessReal_ne_integer
  · exact absurd integer guessReal_ne_integer

theorem canonical_canonical (n : Numeral) : n.canonical.canonical = n.canonical := by
  cases taken : n.guess with
  | integer i =>
    obtain ⟨low, high⟩ := guess_integer taken
    simp [canonical, taken, guess_ofInt low high]
  | real x => simp [canonical, taken, guess_ofDouble]
  | wide i | literal => simp [canonical, taken]

end Numeral

theorem canonicalFields_eq_map (fields : Fields) :
    canonicalFields fields = fields.map fun field => (field.1, field.2.canonical) := by
  induction fields with
  | nil => rfl
  | cons field fields ih => simp [canonicalFields, ih]

mutual
theorem canonical_canonical (j : Json) : j.canonical.canonical = j.canonical := by
  match j with
  | .null | .bool b | .text t => rfl
  | .number n => simp [canonical, Numeral.canonical_canonical]
  | .array items => simp [canonical, canonicalItems_twice items]
  | .object fields => simp [canonical, canonicalFields_twice fields]
theorem canonicalItems_twice (items : List Json) : canonicalItems (canonicalItems items) = canonicalItems items := by
  match items with
  | [] => rfl
  | item :: items => simp [canonicalItems, canonical_canonical item, canonicalItems_twice items]
theorem canonicalFields_twice (fields : Fields) : canonicalFields (canonicalFields fields) = canonicalFields fields := by
  match fields with
  | [] => rfl
  | (key, value) :: fields => simp [canonicalFields, canonical_canonical value, canonicalFields_twice fields]
end

theorem canonicalFields_ascending {fields : Fields} (ordered : Table.Ascending fields) :
    Table.Ascending (canonicalFields fields) := by
  rw [canonicalFields_eq_map]
  exact List.pairwise_map.mpr ordered

mutual
theorem canonical_ordered (j : Json) (ordered : j.Ordered) : j.canonical.Ordered := by
  match j with
  | .null | .bool b | .text t | .number n => trivial
  | .array items => exact canonicalItems_ordered items ordered
  | .object fields => exact ⟨canonicalFields_ascending ordered.1, canonicalFields_ordered fields ordered.2⟩
theorem canonicalItems_ordered (items : List Json) (ordered : ItemsOrdered items) : ItemsOrdered (canonicalItems items) := by
  match items with
  | [] => trivial
  | item :: items => exact ⟨canonical_ordered item ordered.1, canonicalItems_ordered items ordered.2⟩
theorem canonicalFields_ordered (fields : Fields) (ordered : FieldsOrdered fields) :
    FieldsOrdered (canonicalFields fields) := by
  match fields with
  | [] => trivial
  | (key, value) :: fields => exact ⟨canonical_ordered value ordered.1, canonicalFields_ordered fields ordered.2⟩
end

mutual
theorem canonical_depth (j : Json) : j.canonical.depth = j.depth := by
  match j with
  | .null | .bool b | .text t | .number n => rfl
  | .array items => simp [canonical, depth, canonicalItems_depth items]
  | .object fields => simp [canonical, depth, canonicalFields_depth fields]
theorem canonicalItems_depth (items : List Json) : itemsDepth (canonicalItems items) = itemsDepth items := by
  match items with
  | [] => rfl
  | item :: items => simp [canonicalItems, itemsDepth, canonical_depth item, canonicalItems_depth items]
theorem canonicalFields_depth (fields : Fields) : fieldsDepth (canonicalFields fields) = fieldsDepth fields := by
  match fields with
  | [] => rfl
  | (key, value) :: fields => simp [canonicalFields, fieldsDepth, canonical_depth value, canonicalFields_depth fields]
end

theorem Fits.canonical {j : Json} (fits : j.Fits room) : j.canonical.Fits room :=
  ⟨canonical_ordered j fits.1, (canonical_depth j).trans_le fits.2⟩

end FieldGateway.Json
