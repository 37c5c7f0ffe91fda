import FieldGateway.Text.Basic

-- Texts are ordered strictly and totally by their code points.
namespace FieldGateway.Text

theorem precedes_irrefl (t : Text) : precedes t t = false := by
  induction t with
  | nil => rfl
  | cons c t ih => simp [precedes, ih]

theorem precedes_trans (first : precedes a b = true) (second : precedes b c = true) :
    precedes a c = true := by
  induction a generalizing b c with
  | nil =>
    cases b with
    | nil => simp [precedes] at first
    | cons d b =>
      cases c with
      | nil => simp [precedes] at second
      | cons e c => rfl
  | cons x a ih =>
    cases b with
    | nil => simp [precedes] at first
    | cons y b =>
      cases c with
      | nil => simp [precedes] at second
      | cons z c =>
        simp only [precedes] at first second ⊢
        have rest := @ih b c
        grind

theorem precedes_total (a b : Text) : precedes a b = true ∨ a = b ∨ precedes b a = true := by
  induction a generalizing b with
  | nil => cases b <;> simp [precedes]
  | cons x a ih =>
    cases b with
    | nil => simp [precedes]
    | cons y b =>
      rcases Nat.lt_trichotomy x.toNat y.toNat with less | equal | greater
      · exact .inl (by simp [precedes, less])
      · cases Char.toNat_inj.mp equal
        simpa [precedes] using ih b
      · exact .inr (.inr (by simp [precedes, greater]))

theorem precedes_ne (before : precedes a b = true) : a ≠ b := by
  rintro rfl
  simp [precedes_irrefl] at before

theorem precedes_asymm (before : precedes a b = true) : precedes b a = false := by
  cases after : precedes b a with
  | false => rfl
  | true => simpa [precedes_irrefl] using precedes_trans before after

end FieldGateway.Text
