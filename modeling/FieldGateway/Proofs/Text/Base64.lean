import FieldGateway.Text.Base64
import FieldGateway.Text.Blank

-- Bytes come back from their spelling in the alphabet of 64 digits, in which there are no blanks.
namespace FieldGateway.Text

theorem sextet?_sextetChar : ∀ n < 64, sextet? (sextetChar n) = some n := by decide

theorem sextetChar_ne_padding : ∀ n < 64, sextetChar n ≠ '=' := by decide

theorem isBlank_sextetChar : ∀ n < 64, isBlank (sextetChar n) = false := by decide

theorem ofBase64?_group {a b c d : Char} (unpadded : d ≠ '=') (rest : Text) :
    ofBase64? (a :: b :: c :: d :: rest) = (do
      let a ← sextet? a
      let b ← sextet? b
      let c ← sextet? c
      let d ← sextet? d
      let bytes ← ofBase64? rest
      some (Byte.ofNat (a * 4 + b / 16) :: Byte.ofNat (b * 16 + c / 4) :: Byte.ofNat (c * 64 + d) :: bytes)) := by
  rw [ofBase64?]
  · simp [unpadded]
  · simp [unpadded]

theorem join_upper (a : Byte) (small : k < 16) : Byte.ofNat (a.val / 4 * 4 + (a.val % 4 * 16 + k) / 16) = a :=
  Fin.ext (by simp only [Byte.ofNat]; omega)

theorem join_middle (b : Byte) (j : Nat) (small : k < 4) :
    Byte.ofNat ((j * 16 + b.val / 16) * 16 + (b.val % 16 * 4 + k) / 4) = b :=
  Fin.ext (by simp only [Byte.ofNat]; omega)

theorem join_lower (c : Byte) (j : Nat) : Byte.ofNat ((j * 4 + c.val / 64) * 64 + c.val % 64) = c :=
  Fin.ext (by simp only [Byte.ofNat]; omega)

theorem ofBase64?_base64 (bytes : List Byte) : ofBase64? (base64 bytes) = some bytes := by
  induction bytes using base64.induct with
  | case1 => rfl
  | case2 a =>
    have high := sextet?_sextetChar (a.val / 4) (by omega)
    have low := sextet?_sextetChar (a.val % 4 * 16) (by omega)
    have whole : Byte.ofNat (a.val / 4 * 4 + a.val % 4) = a := by simpa using join_upper (k := 0) a (by decide)
    simp [base64, ofBase64?, high, low, whole]
  | case3 a b =>
    have high := sextet?_sextetChar (a.val / 4) (by omega)
    have middle := sextet?_sextetChar (a.val % 4 * 16 + b.val / 16) (by omega)
    have low := sextet?_sextetChar (b.val % 16 * 4) (by omega)
    have first := join_upper (k := b.val / 16) a (by omega)
    have second : Byte.ofNat ((a.val % 4 * 16 + b.val / 16) * 16 + b.val % 16) = b := by
      simpa using join_middle (k := 0) b (a.val % 4) (by decide)
    have unpadded := sextetChar_ne_padding (b.val % 16 * 4) (by omega)
    rw [base64, ofBase64?]
    · simp [high, middle, low, first, second]
    · exact unpadded
  | case4 a b c rest ih =>
    have high := sextet?_sextetChar (a.val / 4) (by omega)
    have upper := sextet?_sextetChar (a.val % 4 * 16 + b.val / 16) (by omega)
    have lower := sextet?_sextetChar (b.val % 16 * 4 + c.val / 64) (by omega)
    have low := sextet?_sextetChar (c.val % 64) (by omega)
    have first := join_upper (k := b.val / 16) a (by omega)
    have second := join_middle (k := c.val / 64) b (a.val % 4) (by omega)
    have third := join_lower c (b.val % 16)
    rw [base64, ofBase64?_group (sextetChar_ne_padding _ (by omega)), ih]
    simp [high, upper, lower, low, first, second, third]

theorem mem_base64 {bytes : List Byte} {c : Char} (member : c ∈ base64 bytes) : c = '=' ∨ ∃ n < 64, c = sextetChar n := by
  induction bytes using base64.induct with
  | case1 => cases member
  | case2 a =>
    simp only [base64, List.mem_cons, List.not_mem_nil, or_false] at member
    rcases member with rfl | rfl | rfl | rfl
    · exact .inr ⟨_, by omega, rfl⟩
    · exact .inr ⟨_, by omega, rfl⟩
    · exact .inl rfl
    · exact .inl rfl
  | case3 a b =>
    simp only [base64, List.mem_cons, List.not_mem_nil, or_false] at member
    rcases member with rfl | rfl | rfl | rfl
    · exact .inr ⟨_, by omega, rfl⟩
    · exact .inr ⟨_, by omega, rfl⟩
    · exact .inr ⟨_, by omega, rfl⟩
    · exact .inl rfl
  | case4 a b c rest ih =>
    simp only [base64, List.mem_cons] at member
    rcases member with rfl | rfl | rfl | rfl | later
    · exact .inr ⟨_, by omega, rfl⟩
    · exact .inr ⟨_, by omega, rfl⟩
    · exact .inr ⟨_, by omega, rfl⟩
    · exact .inr ⟨_, by omega, rfl⟩
    · exact ih later

theorem isBlank_base64 {bytes : List Byte} {c : Char} (member : c ∈ base64 bytes) : isBlank c = false := by
  rcases mem_base64 member with rfl | ⟨n, small, rfl⟩
  · decide
  · exact isBlank_sextetChar n small

end FieldGateway.Text
