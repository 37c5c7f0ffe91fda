import FieldGateway.Text.Bytes

-- A text is spelled in UTF-8 in one way, and exactly the spellings of texts are read.
namespace FieldGateway.Text

theorem lowBits_eq (n : Nat) : lowBits n 0 = 0x80 + n % 64 ∧ lowBits n 6 = 0x80 + n / 64 % 64 ∧
    lowBits n 12 = 0x80 + n / 4096 % 64 := by
  refine ⟨?_, rfl, rfl⟩
  simp [lowBits]

theorem char_bound (c : Char) : c.toNat < 0x110000 := by
  have valid := c.valid
  simp only [UInt32.isValidChar, Nat.isValidChar] at valid
  change c.val.toNat < _
  omega

theorem charBytes_ne_nil (c : Char) : charBytes c ≠ [] := by
  unfold charBytes
  dsimp only
  repeat' split
  all_goals simp

theorem toBytes_cons (c : Char) (t : Text) : toBytes (c :: t) = charBytes c ++ toBytes t := List.flatMap_cons

theorem ofNat_val {n : Nat} (small : n < 256) : (Byte.ofNat n).val = n := by
  simp [Byte.ofNat, Nat.mod_eq_of_lt small]

theorem codePoint?_toNat (c : Char) : codePoint? c.toNat = some c := by
  have valid : c.toNat.isValidChar := c.valid
  simp [codePoint?, valid]

theorem ofNat_toNat {n : Nat} (valid : n.isValidChar) : (Char.ofNat n).toNat = n := by
  unfold Char.ofNat
  rw [dif_pos valid]
  rfl

theorem toNat_of_codePoint? (point : codePoint? n = some c) : c.toNat = n := by
  unfold codePoint? at point
  split at point
  · rename_i valid
    cases point
    exact ofNat_toNat valid
  · cases point

theorem ofBytesAfter?_none (b : Byte) (rest : List Byte) :
    ofBytesAfter? none (b :: rest) =
      if b.val < 0x80 then (ofBytesAfter? none rest).map (Char.ofNat b.val :: ·)
      else match leadingByte? b with
        | some started => ofBytesAfter? (some started) rest
        | none => none := rfl

set_option maxRecDepth 2000 in
theorem ofBytesAfter?_some (started : PartialChar) (b : Byte) (rest : List Byte) :
    ofBytesAfter? (some started) (b :: rest) =
      if 0x80 ≤ b.val ∧ b.val < 0xC0 then
        let bits := started.bits * 64 + (b.val - 0x80)
        if started.due ≤ 1 then
          if started.least ≤ bits then
            match codePoint? bits with
            | some c => (ofBytesAfter? none rest).map (c :: ·)
            | none => none
          else none
        else ofBytesAfter? (some ⟨started.due - 1, bits, started.least⟩) rest
      else none := by
  rfl

theorem ofBytesAfter?_single {k : Nat} (small : k < 0x80) (rest : List Byte) :
    ofBytesAfter? none (Byte.ofNat k :: rest) = (ofBytesAfter? none rest).map (Char.ofNat k :: ·) := by
  rw [ofBytesAfter?_none, ofNat_val (by omega), if_pos small]

theorem ofBytesAfter?_leading (started : leadingByte? b = some begun) (above : 0x80 ≤ b.val) (rest : List Byte) :
    ofBytesAfter? none (b :: rest) = ofBytesAfter? (some begun) rest := by
  rw [ofBytesAfter?_none, if_neg (Nat.not_lt_of_le above), started]

theorem ofBytesAfter?_pair {k : Nat} (small : k < 0x20) (rest : List Byte) :
    ofBytesAfter? none (Byte.ofNat (0xC0 + k) :: rest) = ofBytesAfter? (some ⟨1, k, 0x80⟩) rest := by
  have value : (Byte.ofNat (0xC0 + k)).val = 0xC0 + k := ofNat_val (by omega)
  refine ofBytesAfter?_leading ?_ (by omega) rest
  rw [leadingByte?, value, if_pos (by omega), Nat.add_sub_cancel_left]

theorem ofBytesAfter?_triple {k : Nat} (small : k < 0x10) (rest : List Byte) :
    ofBytesAfter? none (Byte.ofNat (0xE0 + k) :: rest) = ofBytesAfter? (some ⟨2, k, 0x800⟩) rest := by
  have value : (Byte.ofNat (0xE0 + k)).val = 0xE0 + k := ofNat_val (by omega)
  refine ofBytesAfter?_leading ?_ (by omega) rest
  rw [leadingByte?, value, if_neg (by omega), if_pos (by omega), Nat.add_sub_cancel_left]

theorem ofBytesAfter?_quadruple {k : Nat} (small : k < 8) (rest : List Byte) :
    ofBytesAfter? none (Byte.ofNat (0xF0 + k) :: rest) = ofBytesAfter? (some ⟨3, k, 0x10000⟩) rest := by
  have value : (Byte.ofNat (0xF0 + k)).val = 0xF0 + k := ofNat_val (by omega)
  refine ofBytesAfter?_leading ?_ (by omega) rest
  rw [leadingByte?, value, if_neg (by omega), if_neg (by omega), if_pos (by omega), Nat.add_sub_cancel_left]

theorem ofBytesAfter?_further (more : 1 < due) {k : Nat} (small : k < 64) (rest : List Byte) :
    ofBytesAfter? (some ⟨due, bits, least⟩) (Byte.ofNat (0x80 + k) :: rest) =
      ofBytesAfter? (some ⟨due - 1, bits * 64 + k, least⟩) rest := by
  rw [ofBytesAfter?_some, ofNat_val (by omega), if_pos (by omega)]
  dsimp only
  rw [if_neg (Nat.not_le_of_lt more), Nat.add_sub_cancel_left]

theorem ofBytesAfter?_last {c : Char} {k : Nat} (small : k < 64) (whole : bits * 64 + k = c.toNat)
    (long : least ≤ c.toNat) (rest : List Byte) :
    ofBytesAfter? (some ⟨1, bits, least⟩) (Byte.ofNat (0x80 + k) :: rest) =
      (ofBytesAfter? none rest).map (c :: ·) := by
  rw [ofBytesAfter?_some, ofNat_val (by omega), if_pos (by omega)]
  dsimp only
  rw [if_pos (Nat.le_refl _), Nat.add_sub_cancel_left, whole, if_pos long, codePoint?_toNat]

theorem ofBytesAfter?_charBytes (c : Char) (rest : List Byte) :
    ofBytesAfter? none (charBytes c ++ rest) = (ofBytesAfter? none rest).map (c :: ·) := by
  have bound := char_bound c
  obtain ⟨last, middle, first⟩ := lowBits_eq c.toNat
  simp only [charBytes, last, middle, first]
  split
  · rename_i single
    exact (ofBytesAfter?_single single rest).trans (by rw [Char.ofNat_toNat])
  · split
    · refine (ofBytesAfter?_pair (by omega) _).trans ?_
      exact ofBytesAfter?_last (Nat.mod_lt _ (by decide)) (by omega) (by omega) rest
    · split
      · refine (ofBytesAfter?_triple (by omega) _).trans ?_
        refine (ofBytesAfter?_further (by decide) (Nat.mod_lt _ (by decide)) _).trans ?_
        exact ofBytesAfter?_last (Nat.mod_lt _ (by decide)) (by omega) (by omega) rest
      · refine (ofBytesAfter?_quadruple (by omega) _).trans ?_
        refine (ofBytesAfter?_further (by decide) (Nat.mod_lt _ (by decide)) _).trans ?_
        refine (ofBytesAfter?_further (by decide) (Nat.mod_lt _ (by decide)) _).trans ?_
        exact ofBytesAfter?_last (Nat.mod_lt _ (by decide)) (by omega) (by omega) rest

theorem ofBytes?_toBytes (t : Text) : ofBytes? (toBytes t) = some t := by
  induction t with
  | nil => rfl
  | cons c t ih =>
    rw [toBytes_cons, ofBytes?, ofBytesAfter?_charBytes]
    simp only [ofBytes?] at ih
    simp [ih]

theorem ofNat_sub {b : Byte} (start : Nat) (above : start ≤ b.val) : b = Byte.ofNat (start + (b.val - start)) := by
  refine Fin.ext ?_
  rw [ofNat_val (by omega)]
  omega

theorem further_parts (more : 1 < due) (read : ofBytesAfter? (some ⟨due, bits, least⟩) bytes = some t) :
    ∃ k rest, k < 64 ∧ bytes = Byte.ofNat (0x80 + k) :: rest ∧
      ofBytesAfter? (some ⟨due - 1, bits * 64 + k, least⟩) rest = some t := by
  cases bytes with
  | nil => cases read
  | cons b rest =>
    rw [ofBytesAfter?_some] at read
    split at read
    · rename_i within
      dsimp only at read
      rw [if_neg (Nat.not_le_of_lt more)] at read
      exact ⟨b.val - 0x80, rest, by omega, congrArg (· :: rest) (ofNat_sub 0x80 within.1), read⟩
    · cases read

theorem last_parts (read : ofBytesAfter? (some ⟨1, bits, least⟩) bytes = some t) :
    ∃ k rest c behind, k < 64 ∧ bytes = Byte.ofNat (0x80 + k) :: rest ∧ c.toNat = bits * 64 + k ∧
      least ≤ c.toNat ∧ t = c :: behind ∧ ofBytesAfter? none rest = some behind := by
  cases bytes with
  | nil => cases read
  | cons b rest =>
    rw [ofBytesAfter?_some] at read
    split at read
    · rename_i within
      dsimp only at read
      rw [if_pos (Nat.le_refl _)] at read
      split at read
      · rename_i long
        split at read
        · rename_i c point
          obtain ⟨behind, decoded, rfl⟩ := Option.map_eq_some_iff.mp read
          have whole := toNat_of_codePoint? point
          exact ⟨b.val - 0x80, rest, c, behind, by omega, congrArg (· :: rest) (ofNat_sub 0x80 within.1), whole,
            whole ▸ long, rfl, decoded⟩
        · cases read
      · cases read
    · cases read

theorem leading_parts (started : leadingByte? b = some begun) :
    (∃ k, k < 0x20 ∧ b = Byte.ofNat (0xC0 + k) ∧ begun = ⟨1, k, 0x80⟩) ∨
    (∃ k, k < 0x10 ∧ b = Byte.ofNat (0xE0 + k) ∧ begun = ⟨2, k, 0x800⟩) ∨
    ∃ k, k < 8 ∧ b = Byte.ofNat (0xF0 + k) ∧ begun = ⟨3, k, 0x10000⟩ := by
  unfold leadingByte? at started
  split at started
  · rename_i within
    cases started
    exact .inl ⟨b.val - 0xC0, by omega, ofNat_sub 0xC0 within.1, rfl⟩
  · split at started
    · rename_i within
      cases started
      exact .inr (.inl ⟨b.val - 0xE0, by omega, ofNat_sub 0xE0 within.1, rfl⟩)
    · split at started
      · rename_i within
        cases started
        exact .inr (.inr ⟨b.val - 0xF0, by omega, ofNat_sub 0xF0 within.1, rfl⟩)
      · cases started

variable {c : Char} {high middle low k : Nat}

theorem charBytes_single (small : c.toNat < 0x80) : charBytes c = [Byte.ofNat c.toNat] := by
  simp [charBytes, small]

theorem charBytes_pair (code : c.toNat = high * 64 + k) (within : high < 0x20) (last : k < 64) (long : 0x80 ≤ c.toNat) :
    charBytes c = [Byte.ofNat (0xC0 + high), Byte.ofNat (0x80 + k)] := by
  have leading : c.toNat / 64 = high := by omega
  have final : c.toNat % 64 = k := by omega
  simp [charBytes, (lowBits_eq c.toNat).1, leading, final, show ¬ c.toNat < 0x80 by omega, show c.toNat < 0x800 by omega]

theorem charBytes_triple (code : c.toNat = (high * 64 + middle) * 64 + k) (within : high < 0x10) (inner : middle < 64)
    (last : k < 64) (long : 0x800 ≤ c.toNat) :
    charBytes c = [Byte.ofNat (0xE0 + high), Byte.ofNat (0x80 + middle), Byte.ofNat (0x80 + k)] := by
  have leading : c.toNat / 4096 = high := by omega
  have next : c.toNat / 64 % 64 = middle := by omega
  have final : c.toNat % 64 = k := by omega
  simp [charBytes, (lowBits_eq c.toNat).1, (lowBits_eq c.toNat).2.1, leading, next, final,
    show ¬ c.toNat < 0x80 by omega, show ¬ c.toNat < 0x800 by omega, show c.toNat < 0x10000 by omega]

theorem charBytes_quadruple (code : c.toNat = ((high * 64 + middle) * 64 + low) * 64 + k) (inner : middle < 64)
    (further : low < 64) (last : k < 64) (long : 0x10000 ≤ c.toNat) :
    charBytes c =
      [Byte.ofNat (0xF0 + high), Byte.ofNat (0x80 + middle), Byte.ofNat (0x80 + low), Byte.ofNat (0x80 + k)] := by
  have leading : c.toNat / 262144 = high := by omega
  have next : c.toNat / 4096 % 64 = middle := by omega
  have third : c.toNat / 64 % 64 = low := by omega
  have final : c.toNat % 64 = k := by omega
  simp [charBytes, (lowBits_eq c.toNat).1, (lowBits_eq c.toNat).2.1, (lowBits_eq c.toNat).2.2, leading, next, third,
    final, show ¬ c.toNat < 0x80 by omega, show ¬ c.toNat < 0x800 by omega, show ¬ c.toNat < 0x10000 by omega]

theorem ofBytesAfter?_parts (read : ofBytesAfter? none (b :: rest) = some t) :
    ∃ c tail behind, b :: rest = charBytes c ++ tail ∧ t = c :: behind ∧ ofBytesAfter? none tail = some behind := by
  rw [ofBytesAfter?_none] at read
  split at read
  · rename_i small
    obtain ⟨behind, decoded, rfl⟩ := Option.map_eq_some_iff.mp read
    have code : (Char.ofNat b.val).toNat = b.val := ofNat_toNat (.inl (by omega))
    refine ⟨Char.ofNat b.val, rest, behind, ?_, rfl, decoded⟩
    rw [charBytes_single (by omega), code]
    exact congrArg (· :: rest) ((ofNat_sub 0 (Nat.zero_le _)).trans (by simp))
  · split at read
    · rename_i begun started
      rcases leading_parts started with ⟨high, within, rfl, rfl⟩ | ⟨high, within, rfl, rfl⟩ | ⟨high, -, rfl, rfl⟩
      · obtain ⟨k, tail, c, behind, last, rfl, code, long, rfl, decoded⟩ := last_parts read
        exact ⟨c, tail, behind, by rw [charBytes_pair code within last long]; rfl, rfl, decoded⟩
      · obtain ⟨middle, between, inner, rfl, second⟩ := further_parts (by decide) read
        obtain ⟨k, tail, c, behind, last, rfl, code, long, rfl, decoded⟩ := last_parts second
        exact ⟨c, tail, behind, by rw [charBytes_triple code within inner last long]; rfl, rfl, decoded⟩
      · obtain ⟨middle, between, inner, rfl, second⟩ := further_parts (by decide) read
        obtain ⟨low, beyond, further, rfl, third⟩ := further_parts (by decide) second
        obtain ⟨k, tail, c, behind, last, rfl, code, long, rfl, decoded⟩ := last_parts third
        exact ⟨c, tail, behind, by rw [charBytes_quadruple code inner further last long]; rfl, rfl, decoded⟩
    · cases read

theorem toBytes_of_ofBytes? (bytes : List Byte) (read : ofBytes? bytes = some t) : bytes = toBytes t := by
  cases bytes with
  | nil => cases read; rfl
  | cons b rest =>
    obtain ⟨c, tail, behind, split, rfl, decoded⟩ := ofBytesAfter?_parts read
    have shorter : tail.length < (b :: rest).length := by
      rw [split, List.length_append]
      have taken := List.length_pos_iff.mpr (charBytes_ne_nil c)
      omega
    rw [split, toBytes_cons, toBytes_of_ofBytes? tail decoded]
termination_by bytes.length

theorem ofBytes?_eq_some_iff : ofBytes? bytes = some t ↔ bytes = toBytes t := by
  constructor
  · exact toBytes_of_ofBytes? bytes
  · rintro rfl
    exact ofBytes?_toBytes t

end FieldGateway.Text
