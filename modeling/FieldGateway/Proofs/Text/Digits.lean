import FieldGateway.Text.Digits
import Mathlib.Tactic.Ring

-- Decimal digits and the numbers that they denote determine each other, up to zeros in front,
-- and a run of digits is read back from its text.
namespace FieldGateway

namespace Digit

theorem foldl_value (digits : List Digit) (start : Nat) :
    digits.foldl (fun n d => n * 10 + d.val) start = start * 10 ^ digits.length + value digits := by
  induction digits generalizing start with
  | nil => simp [value]
  | cons d ds ih =>
    have ofDigits : value (d :: ds) = d.val * 10 ^ ds.length + value ds := by
      rw [← ih]
      simp [value]
    rw [List.foldl_cons, ih, ofDigits, List.length_cons, Nat.pow_succ', ← Nat.add_assoc, Nat.add_mul,
      Nat.mul_assoc]

theorem value_append (a b : List Digit) : value (a ++ b) = value a * 10 ^ b.length + value b := by
  rw [value, List.foldl_append, foldl_value]
  rfl

theorem value_cons (d : Digit) (ds : List Digit) : value (d :: ds) = d.val * 10 ^ ds.length + value ds := by
  simpa [value] using value_append [d] ds

theorem value_zeros (count : Nat) : value (List.replicate count zero) = 0 := by
  induction count with
  | zero => rfl
  | succ count ih => simpa [List.replicate_succ, value_cons, zero] using ih

theorem value_lt (digits : List Digit) : value digits < 10 ^ digits.length := by
  induction digits with
  | nil => decide
  | cons d ds ih =>
    have digit : d.val + 1 ≤ 10 := d.isLt
    calc value (d :: ds) < d.val * 10 ^ ds.length + 10 ^ ds.length := by
          rw [value_cons]
          exact Nat.add_lt_add_left ih _
      _ = (d.val + 1) * 10 ^ ds.length := by rw [Nat.add_mul, Nat.one_mul]
      _ ≤ 10 * 10 ^ ds.length := Nat.mul_le_mul_right _ digit
      _ = 10 ^ (d :: ds).length := by rw [List.length_cons, Nat.pow_succ']

theorem ofNat_small (small : n < 10) : ofNat n = [⟨n, small⟩] := by
  unfold ofNat
  rw [if_pos small]
  congr 1
  exact Fin.ext (Nat.mod_eq_of_lt small)

theorem ofNat_large (large : 10 ≤ n) : ofNat n = ofNat (n / 10) ++ [Fin.ofNat 10 (n % 10)] := by
  rw [ofNat]
  exact if_neg (Nat.not_lt.mpr large)

theorem value_ofNat (n : Nat) : value (ofNat n) = n := by
  induction n using Nat.strongRecOn with
  | _ n ih =>
    rcases Nat.lt_or_ge n 10 with small | large
    · simp [ofNat_small small, value]
    · rw [ofNat_large large, value_append, ih (n / 10) (by omega)]
      simp only [value, List.foldl_cons, List.foldl_nil, List.length_singleton, Fin.ofNat]
      omega

theorem ofNat_ne_nil (n : Nat) : ofNat n ≠ [] := by
  rcases Nat.lt_or_ge n 10 with small | large
  · simp [ofNat_small small]
  · simp [ofNat_large large]

theorem ofNat_head (positive : 0 < n) : ∃ d ds, ofNat n = d :: ds ∧ d ≠ zero := by
  induction n using Nat.strongRecOn with
  | _ n ih =>
    rcases Nat.lt_or_ge n 10 with small | large
    · refine ⟨⟨n, small⟩, [], ofNat_small small, ?_⟩
      intro equal
      have := congrArg Fin.val equal
      simp only [zero] at this
      omega
    · obtain ⟨d, ds, digits, nonzero⟩ := ih (n / 10) (by omega) (by omega)
      exact ⟨d, ds ++ [Fin.ofNat 10 (n % 10)], by rw [ofNat_large large, digits, List.cons_append], nonzero⟩

theorem lt_pow_length (n : Nat) : n < 10 ^ (ofNat n).length := by
  have bound := value_lt (ofNat n)
  rwa [value_ofNat] at bound

theorem pow_length_le (positive : 0 < n) : 10 ^ ((ofNat n).length - 1) ≤ n := by
  obtain ⟨d, ds, digits, nonzero⟩ := ofNat_head positive
  have whole := value_ofNat n
  have one : 1 ≤ d.val := Nat.one_le_iff_ne_zero.mpr fun equal => nonzero (Fin.ext equal)
  rw [digits, value_cons] at whole
  rw [digits, List.length_cons, Nat.add_sub_cancel]
  calc 10 ^ ds.length = 1 * 10 ^ ds.length := (Nat.one_mul _).symm
    _ ≤ d.val * 10 ^ ds.length := Nat.mul_le_mul_right _ one
    _ ≤ n := by omega

theorem ofChar?_char (d : Digit) : ofChar? d.char = some d := by
  revert d
  decide

theorem char_isDigit (d : Digit) : d.char.isDigit = true := by
  revert d
  decide

def Stops (t : Text) : Prop := ∀ c ∈ t.head?, ofChar? c = none

theorem run_stops (stops : Stops t) : run t = ([], t) := by
  cases t with
  | nil => rfl
  | cons c rest =>
    have noDigit : ofChar? c = none := stops c rfl
    simp [run, noDigit]

theorem run_texts (digits : List Digit) (stops : Stops rest) : run (texts digits ++ rest) = (digits, rest) := by
  induction digits with
  | nil => exact run_stops stops
  | cons d ds ih =>
    have later : run (List.map char ds ++ rest) = (ds, rest) := ih
    simp [texts, run, ofChar?_char, later]

end Digit

namespace Text

theorem digit?_char (d : Digit) : digit? 10 d.char = some d.val := by
  revert d
  decide

theorem natural?_texts (digits : List Digit) (present : digits ≠ []) :
    natural? 10 (Digit.texts digits) = some (Digit.value digits) := by
  have read : (Digit.texts digits).mapM (digit? 10) = some (digits.map Fin.val) := by
    clear present
    induction digits with
    | nil => rfl
    | cons d ds ih =>
      have rest : (List.map Digit.char ds).mapM (digit? 10) = some (ds.map Fin.val) := ih
      simp [Digit.texts, List.mapM_cons, digit?_char, rest]
  unfold natural?
  rw [read]
  simp [Digit.texts, present, Digit.value, List.foldl_map]

end Text
end FieldGateway
