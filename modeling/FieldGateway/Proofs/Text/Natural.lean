import FieldGateway.Proofs.Text.Digits
import FieldGateway.Proofs.Text.Pieces
import Mathlib.Data.List.Induction

-- Natural numbers are read off their digits, one after the other, and from nothing else.
namespace FieldGateway.Text

inductive Hexadecimal : Text → Nat → Prop where
  | single (digit : hexDigit? c = some d) : Hexadecimal [c] d
  | snoc (front : Hexadecimal t n) (digit : hexDigit? c = some d) : Hexadecimal (t ++ [c]) (n * 16 + d)

variable {base n d : Nat} {c : Char} {t : Text}

theorem hexDigit?_lt (digit : hexDigit? c = some d) : d < 16 := by
  unfold hexDigit? at digit
  simp only at digit
  split at digit
  · cases digit
    omega
  · split at digit
    · cases digit
      omega
    · split at digit
      · cases digit
        omega
      · cases digit

theorem digit?_sixteen (c : Char) : digit? 16 c = hexDigit? c := by
  unfold digit?
  cases digit : hexDigit? c with
  | none => rfl
  | some d => exact if_pos (hexDigit?_lt digit)

theorem natural?_single (base : Nat) (c : Char) : natural? base [c] = digit? base c := by
  unfold natural?
  cases digit : digit? base c <;> simp [digit]

theorem natural?_snoc (present : t ≠ []) (c : Char) :
    natural? base (t ++ [c]) = (natural? base t).bind fun n => (digit? base c).map (n * base + ·) := by
  unfold natural?
  rw [List.isEmpty_eq_false_iff.mpr present, List.mapM_append]
  cases t.mapM (digit? base) with
  | none => simp
  | some digits => cases digit : digit? base c <;> simp [digit, List.foldl_append]

theorem natural?_first (read : natural? base t = some n) : ∃ c rest d, t = c :: rest ∧ digit? base c = some d := by
  cases t with
  | nil => cases read
  | cons c rest =>
    cases digit : digit? base c with
    | none => simp [natural?, digit] at read
    | some d => exact ⟨c, rest, d, rfl, digit⟩

theorem natural?_ne_nil (read : natural? base t = some n) : t ≠ [] := by
  rintro rfl
  cases read

theorem natural?_unsigned (read : natural? base t = some n) : ∃ c rest, t = c :: rest ∧ c ≠ '+' ∧ c ≠ '-' := by
  obtain ⟨c, rest, d, rfl, digit⟩ := natural?_first read
  refine ⟨c, rest, rfl, ?_, ?_⟩
  · rintro rfl
    cases digit
  · rintro rfl
    cases digit

theorem natural?_ofNat (n : Nat) : natural? 10 (ofNat n) = some n := by
  rw [ofNat, natural?_texts _ (Digit.ofNat_ne_nil n), Digit.value_ofNat]

theorem signed?_ofInt {least greatest i : Int} (low : least ≤ i) (high : i ≤ greatest) :
    signed? 10 least greatest (ofInt i) = some i := by
  have natural := natural?_ofNat i.natAbs
  unfold ofInt
  split
  · rename_i negative
    have back : -(i.natAbs : Int) = i := by omega
    generalize i.natAbs = n at natural back ⊢
    subst back
    simp [signed?, after?, natural, low, high]
  · rename_i whole
    obtain ⟨c, rest, first, plus, minus⟩ := natural?_unsigned natural
    have back : (i.natAbs : Int) = i := by omega
    generalize i.natAbs = n at natural first back ⊢
    subst back
    rw [first] at natural ⊢
    simp [signed?, after?, Ne.symm plus, Ne.symm minus, natural, low, high]

theorem ofInt_parts (i : Int) : ∃ sign, (sign = [] ∨ sign = ['-']) ∧
    ofInt i = sign ++ Digit.texts (Digit.ofNat i.natAbs) := by
  unfold Text.ofInt
  split
  · exact ⟨['-'], .inr rfl, rfl⟩
  · exact ⟨[], .inl rfl, rfl⟩

theorem mem_ofInt {i : Int} (member : c ∈ ofInt i) : c = '-' ∨ ∃ d : Digit, c = d.char := by
  obtain ⟨sign, form, shape⟩ := ofInt_parts i
  rw [shape] at member
  rcases List.mem_append.mp member with first | digit
  · rcases form with rfl | rfl
    · cases first
    · exact .inl (List.mem_singleton.mp first)
  · obtain ⟨d, -, rfl⟩ := List.mem_map.mp digit
    exact .inr ⟨d, rfl⟩

theorem notMem_ofInt {i : Int} (other : c ≠ '-') (noDigit : ∀ d : Digit, c ≠ d.char) : c ∉ ofInt i := by
  intro member
  rcases mem_ofInt member with same | ⟨d, same⟩
  · exact other same
  · exact noDigit d same

theorem unsigned?_ofNat (fits : n ≤ greatest) : unsigned? 10 greatest (ofNat n) = some n := by
  obtain ⟨c, rest, first, plus, _⟩ := natural?_unsigned (natural?_ofNat n)
  have unmarked : after? ['+'] (ofNat n) = none := by
    rw [first]
    exact if_neg (Ne.symm plus)
  simp [unsigned?, unmarked, natural?_ofNat, fits]

theorem unsigned?_le (read : unsigned? base greatest t = some n) : n ≤ greatest := by
  unfold unsigned? at read
  split at read
  · split at read
    · rename_i fits
      cases read
      exact fits
    · cases read
  · cases read

-- Nothing but digits is read. By induction from the back, where the last digit is added.
theorem natural?_notMem (read : natural? base t = some n) (other : digit? base c = none) : c ∉ t := by
  induction t using List.reverseRecOn generalizing n with
  | nil => exact List.not_mem_nil
  | append_singleton t last ih =>
    by_cases present : t = []
    · subst present
      rw [List.nil_append, natural?_single] at read
      rintro member
      rw [← List.mem_singleton.mp member, other] at read
      cases read
    · rw [natural?_snoc present] at read
      obtain ⟨m, front, digit⟩ := Option.bind_eq_some_iff.mp read
      intro member
      rcases List.mem_append.mp member with early | late
      · exact ih front early
      · rw [← List.mem_singleton.mp late, other] at digit
        cases digit

theorem notMem_marked (marks : c ≠ mark) (behind : c ∉ (after? [mark] t).getD t) : c ∉ t := by
  cases marked : after? [mark] t with
  | none => rwa [marked] at behind
  | some rest =>
    rw [marked] at behind
    rw [after?_eq_some_iff.mp marked]
    exact List.not_mem_cons_of_ne_of_not_mem marks behind

theorem unsigned?_notMem (read : unsigned? base greatest t = some n) (plus : c ≠ '+') (other : digit? base c = none) :
    c ∉ t := by
  unfold unsigned? at read
  split at read
  · rename_i number
    exact notMem_marked plus (natural?_notMem number other)
  · cases read

theorem signed?_notMem {least greatest i : Int} (read : signed? base least greatest t = some i) (plus : c ≠ '+')
    (minus : c ≠ '-') (other : digit? base c = none) : c ∉ t := by
  unfold signed? at read
  simp only at read
  split at read
  · rename_i number
    split at number
    · rename_i digits marked
      obtain ⟨i, number, -⟩ := Option.map_eq_some_iff.mp number
      obtain ⟨n, number, -⟩ := Option.bind_eq_some_iff.mp number
      refine notMem_marked minus ?_
      rw [marked]
      exact natural?_notMem number other
    · obtain ⟨n, number, -⟩ := Option.map_eq_some_iff.mp number
      exact notMem_marked plus (natural?_notMem number other)
  · cases read

theorem natural?_eq_some_iff : natural? 16 t = some n ↔ Hexadecimal t n := by
  constructor
  · intro read
    induction t using List.reverseRecOn generalizing n with
    | nil => cases read
    | append_singleton t c ih =>
      by_cases present : t = []
      · subst present
        rw [List.nil_append, natural?_single, digit?_sixteen] at read
        exact .single read
      · rw [natural?_snoc present, digit?_sixteen] at read
        obtain ⟨m, front, last⟩ := Option.bind_eq_some_iff.mp read
        obtain ⟨d, digit, rfl⟩ := Option.map_eq_some_iff.mp last
        exact .snoc (ih front) digit
  · intro hexadecimal
    induction hexadecimal with
    | single digit => rw [natural?_single, digit?_sixteen, digit]
    | snoc front digit ih =>
      rw [natural?_snoc (natural?_ne_nil ih), ih, digit?_sixteen, digit]
      rfl

end FieldGateway.Text
