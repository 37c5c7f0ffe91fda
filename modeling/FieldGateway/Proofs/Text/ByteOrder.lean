import FieldGateway.Proofs.Text.Bytes
import FieldGateway.Proofs.Text.Order

-- Texts in the order of their characters are in the order of their UTF-8 bytes.
namespace FieldGateway.Text

theorem byte_lt_iff {m n : Nat} (small : m < 256) (also : n < 256) : Byte.ofNat m < Byte.ofNat n ↔ m < n := by
  simp [Byte.ofNat, Fin.lt_def, Nat.mod_eq_of_lt small, Nat.mod_eq_of_lt also]

theorem append_lt_append_iff {x y : List Byte} (shared : List Byte) : shared ++ x < shared ++ y ↔ x < y := by
  induction shared with
  | nil => rfl
  | cons b shared ih => simp [ih]

-- A larger number is spelled by larger bytes, whatever follows.
def Grows (bound : Nat) (spelled : Nat → List Byte) : Prop :=
  ∀ m n x y, m < n → n < bound → spelled m ++ x < spelled n ++ y

theorem leading_lt {m n : Nat} {x y : List Byte} (less : m < n) (small : n < 256) :
    Byte.ofNat m :: x < Byte.ofNat n :: y :=
  List.cons_lt_cons_iff.mpr (.inl ((byte_lt_iff (Nat.lt_trans less small) small).mpr less))

theorem grows_leading (lead bound : Nat) (small : lead + bound ≤ 256) :
    Grows bound fun n => [Byte.ofNat (lead + n)] := by
  intro m n x y less within
  exact leading_lt (by omega) (by omega)

theorem Grows.sextet {bound : Nat} {spelled : Nat → List Byte} (grows : Grows bound spelled) :
    Grows (bound * 64) fun n => spelled (n / 64) ++ [Byte.ofNat (0x80 + n % 64)] := by
  intro m n x y less within
  simp only [List.append_assoc, List.singleton_append]
  rcases Nat.lt_or_eq_of_le (Nat.div_le_div_right (c := 64) (Nat.le_of_lt less)) with high | same
  · exact grows _ _ _ _ high (by omega)
  · rw [same, append_lt_append_iff]
    exact leading_lt (by omega) (by omega)

variable {c d : Char}

theorem charBytes_cases (c : Char) :
    (c.toNat < 0x80 ∧ charBytes c = [Byte.ofNat c.toNat]) ∨
    (0x80 ≤ c.toNat ∧ c.toNat < 0x800 ∧
      charBytes c = [Byte.ofNat (0xC0 + c.toNat / 64)] ++ [Byte.ofNat (0x80 + c.toNat % 64)]) ∨
    (0x800 ≤ c.toNat ∧ c.toNat < 0x10000 ∧ charBytes c = [Byte.ofNat (0xE0 + c.toNat / 64 / 64)] ++
      [Byte.ofNat (0x80 + c.toNat / 64 % 64)] ++ [Byte.ofNat (0x80 + c.toNat % 64)]) ∨
    (0x10000 ≤ c.toNat ∧ charBytes c = [Byte.ofNat (0xF0 + c.toNat / 64 / 64 / 64)] ++
      [Byte.ofNat (0x80 + c.toNat / 64 / 64 % 64)] ++ [Byte.ofNat (0x80 + c.toNat / 64 % 64)] ++
        [Byte.ofNat (0x80 + c.toNat % 64)]) := by
  obtain ⟨last, middle, first⟩ := lowBits_eq c.toNat
  simp only [charBytes, last, middle, first, Nat.div_div_eq_div_mul]
  split
  · exact .inl ⟨‹_›, rfl⟩
  · split
    · exact .inr (.inl ⟨by omega, ‹_›, rfl⟩)
    · split
      · exact .inr (.inr (.inl ⟨by omega, ‹_›, rfl⟩))
      · exact .inr (.inr (.inr ⟨by omega, rfl⟩))

theorem charBytes_lt (less : c.toNat < d.toNat) (x y : List Byte) : charBytes c ++ x < charBytes d ++ y := by
  have bound := char_bound d
  rcases charBytes_cases d with ⟨single, its⟩ | ⟨long, pair, its⟩ | ⟨long, triple, its⟩ | ⟨long, its⟩ <;>
    rcases charBytes_cases c with ⟨single', own⟩ | ⟨long', pair', own⟩ | ⟨long', triple', own⟩ | ⟨long', own⟩ <;>
    rw [own, its]
  any_goals first | exact leading_lt (by omega) (by omega) | omega
  · exact (grows_leading 0xC0 0x20 (by decide)).sextet _ _ x y less pair
  · exact (grows_leading 0xE0 0x10 (by decide)).sextet.sextet _ _ x y less triple
  · exact (grows_leading 0xF0 0x8 (by decide)).sextet.sextet.sextet _ _ x y less (by omega)

theorem precedes_iff_bytes_lt (a b : Text) : precedes a b = true ↔ toBytes a < toBytes b := by
  induction a generalizing b with
  | nil =>
    cases b with
    | nil => simp [precedes, toBytes]
    | cons d b =>
      obtain ⟨first, behind, same⟩ := List.exists_cons_of_ne_nil (charBytes_ne_nil d)
      simp [precedes, toBytes, same]
  | cons c a ih =>
    cases b with
    | nil => simp [precedes, toBytes]
    | cons d b =>
      rw [toBytes_cons, toBytes_cons, precedes]
      rcases Nat.lt_trichotomy c.toNat d.toNat with less | same | greater
      · simp [less, charBytes_lt less]
      · cases Char.toNat_inj.mp same
        simp [append_lt_append_iff, ih]
      · have above := charBytes_lt greater (toBytes b) (toBytes a)
        have notLess : ¬ c.toNat < d.toNat := by omega
        simp only [notLess, greater, if_true, if_false, Bool.false_eq_true, false_iff]
        exact List.lt_asymm above

end FieldGateway.Text
