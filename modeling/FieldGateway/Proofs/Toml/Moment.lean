import FieldGateway.Proofs.Text.Natural
import FieldGateway.Toml.Moment
import Mathlib.Data.List.TakeWhile
import Mathlib.Data.List.DropRight

-- A moment that has been read is written in one way only, and what is written is read as the
-- same moment, without zeros at the end of its fraction.
namespace FieldGateway.Toml

namespace Moment

variable {width least greatest n : Nat} {t rest : Text}

theorem padded_eq (width n : Nat) : padded width n =
    Digit.texts (List.replicate (width - (Text.ofNat n).length) Digit.zero ++ Digit.ofNat n) := by
  rw [Digit.texts, List.map_append, List.map_replicate]
  rfl

theorem length_padded (positive : 0 < width) (fits : n < 10 ^ width) : (padded width n).length = width := by
  have short : (Digit.ofNat n).length ≤ width := by
    rcases Nat.eq_zero_or_pos n with rfl | some
    · rw [Digit.ofNat]
      exact positive
    · have less := (Nat.pow_lt_pow_iff_right (by decide)).mp (Nat.lt_of_le_of_lt (Digit.pow_length_le some) fits)
      omega
  simp only [padded, Text.ofNat, Digit.texts, List.length_append, List.length_replicate, List.length_map]
  omega

theorem number?_padded (positive : 0 < width) (fits : n < 10 ^ width) (above : least ≤ n) (below : n ≤ greatest) (rest : Text) :
    number? width least greatest (padded width n ++ rest) = some (n, rest) := by
  have length := length_padded positive fits
  have read : Text.natural? 10 (padded width n) = some n := by
    rw [padded_eq, Text.natural?_texts _ (by simp [Digit.ofNat_ne_nil]), Digit.value_append, Digit.value_zeros,
      Digit.value_ofNat, Nat.zero_mul, Nat.zero_add]
  have enough : width ≤ (padded width n ++ rest).length := by rw [List.length_append, length]; omega
  unfold number?
  rw [List.take_left' length, List.drop_left' length, read]
  simp only [enough, above, below, decide_true, Bool.and_self, if_true]

theorem number?_bounds (read : number? width least greatest t = some (n, rest)) : least ≤ n ∧ n ≤ greatest := by
  unfold number? at read
  split at read
  · split at read
    · rename_i within
      cases read
      simp only [Bool.and_eq_true, decide_eq_true_eq] at within
      exact ⟨within.1.2, within.2⟩
    · cases read
  · cases read

end Moment

structure Date.Valid (d : Date) : Prop where
  year : d.year ≤ 9999
  month : 1 ≤ d.month ∧ d.month ≤ 12
  day : 1 ≤ d.day ∧ d.day ≤ 31

structure Clock.Valid (c : Clock) : Prop where
  hour : c.hour ≤ 24
  minute : c.minute ≤ 59
  second : c.second ≤ 59
  fraction : c.fraction.length ≤ 9

def Offset.Valid : Offset → Prop
  | .universal => True
  | .shifted _ hours minutes => hours ≤ 99 ∧ minutes ≤ 99

inductive Moment.Valid : Moment → Prop where
  | date (date : Date.Valid d) : Valid ⟨some d, none, none⟩
  | clock (clock : Clock.Valid c) : Valid ⟨none, some c, none⟩
  | both {shift : Option Offset} (date : Date.Valid d) (clock : Clock.Valid c) (offset : ∀ o ∈ shift, Offset.Valid o) :
    Valid ⟨some d, some c, shift⟩

def Clock.trimmed (c : Clock) : Clock :=
  { c with fraction := (c.fraction.reverse.dropWhile (· = Digit.zero)).reverse }

namespace Moment

variable {d : Date} {c : Clock} {m : Moment}

theorem date?_text (valid : d.Valid) (rest : Text) : date? (Date.text d ++ rest) = some (d, rest) := by
  obtain ⟨year, ⟨firstMonth, lastMonth⟩, firstDay, lastDay⟩ := valid
  have shape : Date.text d ++ rest =
      padded 4 d.year ++ '-' :: (padded 2 d.month ++ '-' :: (padded 2 d.day ++ rest)) := by simp [Date.text]
  have yearRead := fun rest => number?_padded (by decide : 0 < 4) (by omega) (Nat.zero_le _) year rest
  have monthRead := fun rest => number?_padded (by decide : 0 < 2) (by omega) firstMonth lastMonth rest
  have dayRead := fun rest => number?_padded (by decide : 0 < 2) (by omega) firstDay lastDay rest
  rw [shape, date?]
  simp [yearRead, monthRead, dayRead, Text.after?]

def Follows (t : Text) : Prop := ∀ c ∈ t.head?, Digit.ofChar? c = none ∧ c ≠ '.'

theorem fraction?_texts (digits : List Digit) (short : digits.length ≤ 9) (follows : Follows rest) :
    fraction? ((if (Digit.texts digits).isEmpty then [] else '.' :: Digit.texts digits) ++ rest) = some (digits, rest) := by
  have stops : Digit.Stops rest := fun c first => (follows c first).1
  cases digits with
  | nil =>
    have unmarked : Text.after? ['.'] rest = none := by
      cases rest with
      | nil => rfl
      | cons c rest => exact if_neg (Ne.symm (follows c rfl).2)
    simp [fraction?, Digit.texts, unmarked]
  | cons d ds =>
    have run := Digit.run_texts (d :: ds) stops
    simp only [Digit.texts, List.map_cons, List.isEmpty_cons, Bool.false_eq_true, if_false, List.cons_append] at run ⊢
    simp only [fraction?, Text.after?, if_true, run]
    rw [List.take_of_length_le short]

theorem trimmed_texts (digits : List Digit) : Text.dropTrailing (· = '0') (Digit.texts digits) =
    Digit.texts (digits.reverse.dropWhile (· = Digit.zero)).reverse := by
  have zero : ∀ d : Digit, decide (d.char = '0') = decide (d = Digit.zero) := by decide
  unfold Text.dropTrailing Digit.texts
  rw [← List.map_reverse, List.dropWhile_map, List.map_reverse]
  simp only [Function.comp_def, zero]

theorem clock?_text (valid : c.Valid) (follows : Follows rest) : clock? (Clock.text c ++ rest) = some (c.trimmed, rest) := by
  obtain ⟨hour, minute, second, fraction⟩ := valid
  have hourRead := fun rest => number?_padded (by decide : 0 < 2) (by omega) (Nat.zero_le _) hour rest
  have minuteRead := fun rest => number?_padded (by decide : 0 < 2) (by omega) (Nat.zero_le _) minute rest
  have secondRead := fun rest => number?_padded (by decide : 0 < 2) (by omega) (Nat.zero_le _) second rest
  have short : c.trimmed.fraction.length ≤ 9 := by
    have shorter := List.length_dropWhile_le (· = Digit.zero) c.fraction.reverse
    simp only [List.length_reverse] at shorter
    simpa [Clock.trimmed] using Nat.le_trans shorter fraction
  have fractionRead := fraction?_texts c.trimmed.fraction short follows
  have shape : Clock.text c ++ rest = padded 2 c.hour ++ ':' :: (padded 2 c.minute ++ ':' :: (padded 2 c.second ++
      ((if (Digit.texts c.trimmed.fraction).isEmpty then [] else '.' :: Digit.texts c.trimmed.fraction) ++ rest))) := by
    simp only [Clock.text, trimmed_texts, List.append_assoc, List.cons_append]
    rfl
  rw [shape, clock?]
  simp only [hourRead, minuteRead, secondRead, fractionRead, Text.after?, if_true, bind, Option.bind]
  rfl

theorem follows_offset (shift : Option Offset) : Follows ((shift.map Offset.text).getD []) := by
  intro first head
  match shift with
  | none => cases head
  | some .universal =>
    cases head
    decide
  | some (.shifted ahead hours minutes) =>
    cases ahead <;> cases head <;> decide

theorem offset?_text {shift : Option Offset} (valid : ∀ o ∈ shift, Offset.Valid o) :
    offset? ((shift.map Offset.text).getD []) = some shift := by
  match shift with
  | none => rfl
  | some .universal => rfl
  | some (.shifted ahead hours minutes) =>
    obtain ⟨few, less⟩ := valid _ rfl
    have hoursRead := fun rest => number?_padded (by decide : 0 < 2) (by omega) (Nat.zero_le _) few rest
    have minutesRead := number?_padded (by decide : 0 < 2) (by omega) (Nat.zero_le _) less []
    rw [List.append_nil] at minutesRead
    cases ahead <;> simp [Offset.text, offset?, hoursRead, minutesRead, Text.after?]

theorem date?_clock (valid : c.Valid) (rest : Text) : date? (Clock.text c ++ rest) = none := by
  have length : (padded 2 c.hour).length = 2 := length_padded (by decide) (Nat.lt_of_le_of_lt valid.hour (by decide))
  have colon : ':' ∈ (Clock.text c ++ rest).take 4 := by
    have shape : ∃ behind, Clock.text c ++ rest = padded 2 c.hour ++ ':' :: behind := by simp [Clock.text]
    obtain ⟨behind, shape⟩ := shape
    rw [shape, List.take_append, length]
    simp
  have unread : number? 4 0 9999 (Clock.text c ++ rest) = none := by
    unfold number?
    cases read : Text.natural? 10 ((Clock.text c ++ rest).take 4) with
    | none => rfl
    | some n => exact absurd colon (Text.natural?_notMem read (by decide))
  rw [date?, unread]
  rfl

def trimmed (m : Moment) : Moment := { m with clock := m.clock.map Clock.trimmed }

theorem read?_text (valid : m.Valid) : read? m.text = some m.trimmed := by
  cases valid with
  | date date =>
    have read := date?_text date []
    rw [List.append_nil] at read
    simp [read?, text, read, trimmed]
  | @clock c clock =>
    have read : clock? (Clock.text c ++ []) = some (c.trimmed, []) := clock?_text clock nofun
    have undated := date?_clock clock []
    rw [List.append_nil] at read undated
    simp [read?, text, read, undated, trimmed]
  | @both d c shift date clock offset =>
    have offsetRead := offset?_text offset
    have clockRead := clock?_text clock (follows_offset shift)
    have dateRead := date?_text date ('T' :: (Clock.text c ++ (shift.map Offset.text).getD []))
    have shape : text ⟨some d, some c, shift⟩ = Date.text d ++ 'T' :: (Clock.text c ++ (shift.map Offset.text).getD []) := by
      cases shift <;> simp [text]
    rw [shape, read?, dateRead]
    simp [clockRead, offsetRead, trimmed]

theorem date?_valid (read : date? t = some (d, rest)) : d.Valid := by
  simp only [date?, bind, Option.bind_eq_some_iff] at read
  obtain ⟨⟨year, t₁⟩, first, t₂, -, ⟨month, t₃⟩, second, t₄, -, ⟨day, t₅⟩, third, parts⟩ := read
  cases parts
  exact ⟨(number?_bounds first).2, number?_bounds second, number?_bounds third⟩

theorem clock?_valid (read : clock? t = some (c, rest)) : c.Valid := by
  simp only [clock?, bind, Option.bind_eq_some_iff] at read
  obtain ⟨⟨hour, t₁⟩, first, t₂, -, ⟨minute, t₃⟩, second, t₄, -, ⟨seconds, t₅⟩, third, ⟨fraction, t₆⟩, fourth, parts⟩ := read
  cases parts
  refine ⟨(number?_bounds first).2, (number?_bounds second).2, (number?_bounds third).2, ?_⟩
  unfold fraction? at fourth
  split at fourth
  · cases fourth
    exact Nat.zero_le _
  · split at fourth
    · cases fourth
    · cases fourth
      simp

theorem offset?_valid {shift : Option Offset} (read : offset? t = some shift) : ∀ o ∈ shift, Offset.Valid o := by
  unfold offset? at read
  split at read
  · cases read
    nofun
  · cases read
    rintro o ⟨⟩
    trivial
  · cases read
    rintro o ⟨⟩
    trivial
  · split at read
    · simp only [bind, Option.bind_eq_some_iff] at read
      obtain ⟨⟨hours, t₁⟩, first, t₂, -, ⟨minutes, t₃⟩, second, ended⟩ := read
      split at ended
      · cases ended
        rintro o ⟨⟩
        exact ⟨(number?_bounds first).2, (number?_bounds second).2⟩
      · cases ended
    · cases read

theorem read?_valid (read : read? t = some m) : m.Valid := by
  unfold read? at read
  split at read
  · simp only [bind, Option.bind_eq_some_iff] at read
    obtain ⟨⟨c, left⟩, clock, ended⟩ := read
    split at ended
    · cases ended
      exact .clock (clock?_valid clock)
    · cases ended
  · rename_i date
    cases read
    exact .date (date?_valid date)
  · rename_i date
    split at read
    · simp only [bind, Option.bind_eq_some_iff] at read
      obtain ⟨⟨c, left⟩, clock, later⟩ := read
      obtain ⟨shift, offset, parts⟩ := Option.map_eq_some_iff.mp later
      cases parts
      exact .both (date?_valid date) (clock?_valid clock) (offset?_valid offset)
    · cases read

theorem text_trimmed (m : Moment) : m.trimmed.text = m.text := by
  have clock : ∀ c : Clock, Clock.text c.trimmed = Clock.text c := by
    intro c
    have fraction : Text.dropTrailing (· = '0') (Digit.texts c.trimmed.fraction) =
        Text.dropTrailing (· = '0') (Digit.texts c.fraction) := by
      rw [trimmed_texts, trimmed_texts, Clock.trimmed, List.reverse_reverse, List.dropWhile_idempotent]
    simp only [Clock.text, fraction]
    rfl
  obtain ⟨date, hours, shift⟩ := m
  cases hours with
  | none => rfl
  | some c =>
    simp only [text, trimmed, Option.map_some, clock]
    rfl

-- The text that stands for a moment is its only one: it is read again as what was written.
theorem read?_text_of_read? (read : read? t = some m) : read? m.text = some m.trimmed ∧ m.trimmed.text = m.text :=
  ⟨read?_text (read?_valid read), text_trimmed m⟩

end Moment

end FieldGateway.Toml
