import FieldGateway.Proofs.Json.Escape
import FieldGateway.Yaml.Scalar
import Mathlib.Data.List.TakeWhile

-- Scalars on one line. Whatever text a JSON document has in quotes is read as that text, also
-- where it has blanks; a plain word goes as far as the next mark of the collection around it.
namespace FieldGateway.Yaml

def Cursor.onward (c : Cursor) (rest : Text) (count : Nat) : Cursor := ⟨rest, c.index + count, c.line, c.column + count⟩

section Onward

variable {c : Cursor} {d : Char} {rest : Text} {count : Nat}

@[simp] theorem Cursor.onward_rest : (c.onward rest count).rest = rest := rfl
@[simp] theorem Cursor.onward_char : (c.onward (d :: rest) count).char = d := rfl

theorem Cursor.onward_zero (stands : c.rest = rest) : c.onward rest 0 = c := by
  rw [← stands]
  rfl

theorem Cursor.skip_onward (other : d ≠ '\n') : (c.onward (d :: rest) count).skip = c.onward rest (count + 1) := by
  simp [skip, char, onward, other, Nat.add_assoc]

theorem Cursor.advance_onward (t : Text) (unbroken : '\n' ∉ t) :
    (c.onward (t ++ rest) count).advance t.length = c.onward rest (count + t.length) := by
  induction t generalizing count with
  | nil => rfl
  | cons d t ih =>
    rw [List.mem_cons, not_or] at unbroken
    rw [List.length_cons, List.cons_append, advance, skip_onward (Ne.symm unbroken.1), ih unbroken.2]
    congr 1
    omega

theorem Cursor.atDocumentMark_onward (moved : 0 < count) : (c.onward rest count).atDocumentMark = false := by
  simp [atDocumentMark, atMark, onward, Nat.ne_of_gt moved]

end Onward

section Quoted

variable {c : Cursor} {d : Char} {t before rest : Text} {count fuel : Nat}

theorem isGap_of_printed (large : 32 ≤ d.toNat) (space : d ≠ ' ') : isGap d = false := by
  have tab : d ≠ '\t' := fun same => absurd large (by rw [same]; decide)
  have newline : d ≠ '\n' := fun same => absurd large (by rw [same]; decide)
  have carriage : d ≠ '\r' := fun same => absurd large (by rw [same]; decide)
  have ending : d ≠ endMark := fun same => absurd large (by rw [same]; decide)
  simp [isGap, isSpace, isBreakOrEnd, isBreak, isEnd, space, tab, newline, carriage, ending]

theorem codeOf?_control (small : d.toNat < 32) :
    codeOf? ['0', '0', Text.hexChar (d.toNat / 16 % 16), Text.hexChar (d.toNat % 16)] = some d := by
  have high := Json.hexDigit?_hexChar (Nat.mod_lt (d.toNat / 16) (by decide))
  have low := Json.hexDigit?_hexChar (Nat.mod_lt d.toNat (by decide))
  have zero : Text.hexDigit? '0' = some 0 := Json.hexDigit?_hexChar (n := 0) (by decide)
  have value : d.toNat / 16 % 16 * 16 + d.toNat % 16 = d.toNat := by omega
  have valid : d.toNat.isValidChar := d.valid
  simp [codeOf?, List.mapM_cons, high, low, zero, value, valid, Char.ofNat_toNat]

theorem quotedRun_escapedChar (space : d ≠ ' ') :
    quotedRun false (fuel + 1) (c.onward (Json.escapedChar d ++ rest) count) before =
      quotedRun false fuel (c.onward rest (count + (Json.escapedChar d).length)) (before ++ [d]) := by
  have escaped := Json.escapedChar_escaped d
  generalize Json.escapedChar d = t at escaped
  cases escaped with
  | @letter e listed =>
    have known : ∀ entry ∈ Json.letters, isBreak entry.1 = false ∧ shortEscape? entry.1 = some entry.2 ∧ entry.1 ≠ '\n' := by
      decide
    obtain ⟨unbroken, short, newline⟩ := known _ listed
    have behind : (c.onward ('\\' :: e :: rest) count).advance 2 = c.onward rest (count + 2) :=
      Cursor.advance_onward ['\\', e] (by simp [newline.symm])
    rw [quotedRun]
    simp [show isGap '\\' = false by decide, Cursor.peek, unbroken, short, behind]
  | code small =>
    have unbroken : ∀ n, Text.hexChar (n % 16) ≠ '\n' := fun n same => by
      have digit := Json.hexDigit?_hexChar (Nat.mod_lt n (by decide))
      rw [same] at digit
      cases digit
    have behind : (c.onward ('\\' :: 'u' :: '0' :: '0' :: Text.hexChar (d.toNat / 16 % 16) ::
        Text.hexChar (d.toNat % 16) :: rest) count).advance 6 = c.onward rest (count + 6) :=
      Cursor.advance_onward ['\\', 'u', '0', '0', _, _] (by simp [(unbroken _).symm])
    rw [quotedRun]
    simp [show isGap '\\' = false by decide, show isBreak 'u' = false by decide, show shortEscape? 'u' = none by decide,
      show longEscape? 'u' = some 4 by decide, Cursor.peek, codeOf?_control small, behind]
  | itself quote backslash large =>
    have solid := isGap_of_printed large space
    have newline : d ≠ '\n' := fun same => absurd large (by rw [same]; decide)
    rw [quotedRun]
    simp [solid, quote, backslash, Cursor.skip_onward newline]

theorem quotedRun_escaped (t : Text) (space : ' ' ∉ t) :
    quotedRun false (fuel + t.length) (c.onward (t.flatMap Json.escapedChar ++ rest) count) before =
      quotedRun false fuel (c.onward rest (count + (t.flatMap Json.escapedChar).length)) (before ++ t) := by
  induction t generalizing count before with
  | nil => simp
  | cons d t ih =>
    rw [List.mem_cons, not_or] at space
    rw [List.flatMap_cons, List.append_assoc, List.length_cons, ← Nat.add_assoc, quotedRun_escapedChar (Ne.symm space.1),
      ih space.2, List.length_append, Nat.add_assoc, List.append_assoc]
    rfl

theorem Gap.scan_blanks {g : Gap} {margin : Int} (t : Text) (spaces : ∀ d ∈ t, d = ' ')
    (solid : ∀ d ∈ rest.head?, isGap d = false) (sameLine : g.broken = false) (enough : t.length ≤ fuel) :
    g.scan margin fuel (c.onward (t ++ rest) count) =
      some ({ g with blanks := g.blanks ++ t }, c.onward rest (count + t.length)) := by
  induction t generalizing count g fuel with
  | nil =>
    have behind : isSpace (c.onward rest count).char = false ∧ isBreak (c.onward rest count).char = false := by
      cases rest with
      | nil => exact ⟨rfl, rfl⟩
      | cons d rest =>
        have other := solid d rfl
        simp only [isGap, isBreakOrEnd, Bool.or_eq_false_iff] at other
        exact ⟨other.1, other.2.1⟩
    cases fuel <;> simp [scan, behind]
  | cons d t ih =>
    rw [List.forall_mem_cons] at spaces
    obtain ⟨fuel, rfl⟩ := Nat.exists_eq_add_one.mpr (Nat.lt_of_lt_of_le (Nat.succ_pos _) enough)
    obtain ⟨rfl, spaces⟩ := spaces
    have added : g.blank ' ' = { g with blanks := g.blanks ++ [' '] } := by simp [blank, sameLine]
    have step : scan margin fuel (c.onward (t ++ rest) (count + 1)) { g with blanks := g.blanks ++ [' '] } = _ :=
      ih spaces sameLine (Nat.le_of_succ_le_succ enough)
    rw [List.cons_append, scan, Cursor.onward_char, Cursor.skip_onward (by decide), added, step]
    simp [isSpace, sameLine, Nat.add_assoc, Nat.add_comm 1]

theorem split_blanks (t : Text) : ' ' ∉ t ∨ ∃ word blanks left, t = word ++ ' ' :: (blanks ++ left) ∧ ' ' ∉ word ∧
    (∀ d ∈ blanks, d = ' ') ∧ left.head? ≠ some ' ' := by
  induction t with
  | nil => exact .inl (by simp)
  | cons d t ih =>
    by_cases space : d = ' '
    · subst space
      refine .inr ⟨[], t.takeWhile (· = ' '), t.dropWhile (· = ' '), ?_, by simp, ?_, ?_⟩
      · rw [List.takeWhile_append_dropWhile]
        rfl
      · intro d member
        simpa using List.mem_takeWhile_imp member
      · intro head
        have stopped := List.head?_dropWhile_not (fun d => decide (d = ' ')) t
        simp [head] at stopped
    · rcases ih with absent | ⟨word, blanks, left, rfl, absent, spaces, stopped⟩
      · exact .inl (by simp [Ne.symm space, absent])
      · exact .inr ⟨d :: word, blanks, left, rfl, by simp [Ne.symm space, absent], spaces, stopped⟩

theorem escapedChar_first (d : Char) : ∃ e more, Json.escapedChar d = e :: more ∧ isEnd e = false ∧ (d ≠ ' ' → isGap e = false) := by
  have escaped := Json.escapedChar_escaped d
  generalize Json.escapedChar d = t at escaped
  cases escaped with
  | letter _ | code _ => exact ⟨_, _, rfl, by decide, fun _ => by decide⟩
  | itself _ _ large =>
    refine ⟨_, _, rfl, decide_eq_false ?_, isGap_of_printed large⟩
    intro same
    exact absurd large (by rw [same]; decide)

theorem flatMap_escapedChar_blanks (spaces : ∀ d ∈ t, d = ' ') : t.flatMap Json.escapedChar = t := by
  induction t with
  | nil => rfl
  | cons d t ih =>
    rw [List.forall_mem_cons] at spaces
    obtain ⟨rfl, spaces⟩ := spaces
    rw [List.flatMap_cons, ih spaces]
    rfl

theorem length_le_escaped (t : Text) : t.length ≤ (t.flatMap Json.escapedChar).length := by
  induction t with
  | nil => exact Nat.le_refl _
  | cons d t ih =>
    obtain ⟨e, more, first, _⟩ := escapedChar_first d
    rw [List.flatMap_cons, List.length_append, List.length_cons, first, List.length_cons]
    omega

theorem quotedRun_quote (c : Cursor) (rest : Text) (fuel count : Nat) (before : Text) :
    quotedRun false (fuel + 1) (c.onward ('"' :: rest) count) before =
      some (before, c.onward ('"' :: rest) count, .quote) := by
  rw [quotedRun]
  simp [show isGap '"' = false by decide]

theorem quotedRun_space (c : Cursor) (rest : Text) (fuel count : Nat) (before : Text) :
    quotedRun false (fuel + 1) (c.onward (' ' :: rest) count) before =
      some (before, c.onward (' ' :: rest) count, .gap) := by
  rw [quotedRun]
  simp [show isGap ' ' = true by decide]

theorem quotedRun_word (word : Text) (absent : ' ' ∉ word) {stop : RunEnd}
    (stops : ∀ fuel count before, quotedRun false (fuel + 1) (c.onward rest count) before = some (before, c.onward rest count, stop)) :
    quotedRun false ((c.onward (word.flatMap Json.escapedChar ++ rest) count).rest.length + 1)
        (c.onward (word.flatMap Json.escapedChar ++ rest) count) before =
      some (before ++ word, c.onward rest (count + (word.flatMap Json.escapedChar).length), stop) := by
  have longer := length_le_escaped word
  obtain ⟨fuel, room⟩ : ∃ fuel, (word.flatMap Json.escapedChar ++ rest).length + 1 = fuel + 1 + word.length :=
    ⟨(word.flatMap Json.escapedChar ++ rest).length - word.length, by rw [List.length_append]; omega⟩
  rw [Cursor.onward_rest, room, quotedRun_escaped word absent, stops]

theorem isEnd_escaped (t : Text) : isEnd (c.onward (t.flatMap Json.escapedChar ++ '"' :: rest) count).char = false := by
  cases t with
  | nil => rfl
  | cons d t =>
    obtain ⟨e, more, first, going, _⟩ := escapedChar_first d
    rw [List.flatMap_cons, first]
    exact going

theorem isGap_escaped (word : t.head? ≠ some ' ') :
    ∀ d ∈ (t.flatMap Json.escapedChar ++ '"' :: rest).head?, isGap d = false := by
  intro d head
  cases t with
  | nil =>
    cases head
    decide
  | cons e t =>
    obtain ⟨f, more, first, _, solid⟩ := escapedChar_first e
    rw [List.flatMap_cons, first] at head
    cases head
    exact solid fun same => word (by rw [same]; rfl)

-- A turn of the reader takes a word and the blanks behind it.
theorem quotedFrom_escaped (t : Text) (enough : t.length < fuel) (moved : 0 < count) :
    quotedFrom false fuel (c.onward (t.flatMap Json.escapedChar ++ '"' :: rest) count) before =
      some ⟨before ++ t, c.onward rest (count + (t.flatMap Json.escapedChar).length + 1), false⟩ := by
  induction size : t.length using Nat.strongRecOn generalizing t fuel count before with
  | ind size ih =>
    obtain ⟨fuel, rfl⟩ := Nat.exists_eq_add_one.mpr (Nat.zero_lt_of_lt enough)
    rw [quotedFrom, Cursor.atDocumentMark_onward moved, isEnd_escaped]
    rcases split_blanks t with absent | ⟨word, blanks, left, rfl, absent, spaces, stopped⟩
    · rw [quotedRun_word t absent (quotedRun_quote c rest)]
      simp only [Bool.or_self, Bool.false_eq_true, if_false, Cursor.onward_char, isQuote, decide_true, if_true,
        Cursor.skip_onward (show '"' ≠ '\n' by decide)]
    · have shown : (word ++ ' ' :: (blanks ++ left)).flatMap Json.escapedChar ++ '"' :: rest =
          word.flatMap Json.escapedChar ++ ' ' :: (blanks ++ (left.flatMap Json.escapedChar ++ '"' :: rest)) := by
        simp [flatMap_escapedChar_blanks spaces, show Json.escapedChar ' ' = [' '] by decide]
      have scanned (margin : Int) (behind : Nat) :
          Gap.none.scan margin (' ' :: (blanks ++ (left.flatMap Json.escapedChar ++ '"' :: rest))).length
              (c.onward (' ' :: (blanks ++ (left.flatMap Json.escapedChar ++ '"' :: rest))) behind) =
            some (⟨' ' :: blanks, false, false, []⟩,
              c.onward (left.flatMap Json.escapedChar ++ '"' :: rest) (behind + (blanks.length + 1))) :=
        Gap.scan_blanks (' ' :: blanks) (List.forall_mem_cons.mpr ⟨rfl, spaces⟩) (isGap_escaped stopped) rfl (by simp)
      simp only [List.length_append, List.length_cons] at enough size
      rw [shown, quotedRun_word word absent (quotedRun_space c _)]
      simp only [Bool.or_self, Bool.false_eq_true, if_false, Cursor.onward_char, isQuote, Cursor.onward_rest, scanned]
      refine (ih _ (by omega) left (by omega) (by omega) rfl).trans ?_
      simp [Gap.text, flatMap_escapedChar_blanks spaces, show Json.escapedChar ' ' = [' '] by decide]
      congr 1
      omega

theorem quotedScalar_quotedText (c : Cursor) (t rest : Text) (count : Nat) :
    quotedScalar false (c.onward (Json.quotedText t ++ rest) count) =
      some ⟨t, c.onward rest (count + (Json.quotedText t).length), false⟩ := by
  have longer := length_le_escaped t
  have shown : Json.quotedText t ++ rest = '"' :: (t.flatMap Json.escapedChar ++ '"' :: rest) := by simp [Json.quotedText]
  rw [shown, quotedScalar, Cursor.skip_onward (by decide), quotedFrom_escaped t _ (Nat.succ_pos _), Json.quotedText]
  · simp only [List.nil_append, List.length_append, List.length_cons, List.length_nil]
    congr 3
    omega
  · simp only [Cursor.onward_rest, List.length_append, List.length_cons]
    omega

end Quoted

section Plain

variable {c : Cursor} {d : Char} {t rest : Text} {count : Nat} {inFlow : Bool}

def isOrdinary (d : Char) : Bool := !isGap d && !isFlowMark d && d != ':' && d != '#'

def Ends (inFlow : Bool) (rest : Text) : Prop := ∀ d ∈ rest.head?, inFlow = true ∧ isFlowMark d = true

theorem plainRun_word (ordinary : ∀ d ∈ t, isOrdinary d = true) (ends : Ends inFlow rest) :
    plainRun inFlow (t ++ rest) = t := by
  induction t with
  | nil =>
    cases rest with
    | nil => rfl
    | cons d rest =>
      obtain ⟨rfl, mark⟩ := ends d rfl
      simp [plainRun, mark]
  | cons d t ih =>
    rw [List.forall_mem_cons] at ordinary
    have first := ordinary.1
    simp only [isOrdinary, Bool.and_eq_true, Bool.not_eq_true', bne_iff_ne] at first
    simp [plainRun, first, ih ordinary.2]

theorem char_ends (ends : Ends inFlow rest) (count : Nat) :
    isSpace (c.onward rest count).char = false ∧ isBreak (c.onward rest count).char = false := by
  cases rest with
  | nil => exact ⟨rfl, rfl⟩
  | cons d rest =>
    have mark := (ends d rfl).2
    simp only [isFlowMark, Bool.or_eq_true, decide_eq_true_eq, or_assoc] at mark
    rcases mark with rfl | rfl | rfl | rfl | rfl <;> exact ⟨rfl, rfl⟩

theorem plain_word (present : t ≠ []) (ordinary : ∀ d ∈ t, isOrdinary d = true) (ends : Ends inFlow rest) (margin : Int)
    (unmarked : (c.onward (t ++ rest) count).atDocumentMark = false) :
    plain inFlow margin (c.onward (t ++ rest) count) = some ⟨t, c.onward rest (count + t.length), false⟩ := by
  have unbroken : '\n' ∉ t := fun member => absurd (ordinary _ member) (by decide)
  have uncommented : (c.onward (t ++ rest) count).char ≠ '#' := by
    obtain ⟨d, more, rfl⟩ := List.exists_cons_of_ne_nil present
    intro same
    exact absurd (ordinary d List.mem_cons_self) (by rw [show d = '#' from same]; decide)
  rw [plain, plainFrom]
  simp [unmarked, uncommented, plainRun_word ordinary ends, present, Cursor.advance_onward t unbroken, char_ends ends, Gap.text, Gap.none]

end Plain

end FieldGateway.Yaml
