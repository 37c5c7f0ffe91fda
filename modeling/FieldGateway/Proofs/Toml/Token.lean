import FieldGateway.Proofs.Json.Escape
import FieldGateway.Proofs.Text.Pieces
import FieldGateway.Toml.Token
import Mathlib.Data.List.TakeWhile

-- Every token leaves a shorter text behind, so the reader never stops for lack of fuel. A text
-- in double quotes that is escaped as JSON escapes it is read as itself.
namespace FieldGateway.Toml

variable {q : Quoting} {inside next : Inside} {c : Char} {t read added rest left : Text}

theorem Quoting.close?_shorter (closed : q.close? inside t = some (read, left)) : left.length < t.length := by
  have marks := (List.takeWhile_prefix (fun d => decide (d = q.mark)) (l := t)).length_le
  unfold Quoting.close? at closed
  grind

theorem Quoting.read_shorter (came : q.read inside t = some (read, left)) : left.length < t.length := by
  induction t generalizing inside read with
  | nil => cases came
  | cons c rest ih =>
    unfold Quoting.read at came
    split at came
    · rename_i closed
      cases came
      exact close?_shorter closed
    · split at came
      · cases came
      · obtain ⟨⟨later, behind⟩, further, parts⟩ := Option.map_eq_some_iff.mp came
        cases parts
        exact Nat.lt_succ_of_lt (ih further)

theorem textToken?_shorter (came : textToken? mark t = some (token, left)) : left.length < t.length := by
  unfold textToken? at came
  split at came
  · rename_i body opened
    obtain ⟨⟨later, behind⟩, further, parts⟩ := Option.map_eq_some_iff.mp came
    cases parts
    have shorter := Quoting.read_shorter further
    rw [Text.after?_eq_some_iff.mp opened]
    cases broken : Text.after? ['\n'] body with
    | none =>
      simp only [broken, Option.getD_none] at shorter
      simp only [List.length_append]
      omega
    | some lines =>
      simp only [broken, Option.getD_some] at shorter
      rw [Text.after?_eq_some_iff.mp broken]
      simp only [List.length_append]
      omega
  · obtain ⟨⟨later, behind⟩, further, parts⟩ := Option.map_eq_some_iff.mp came
    cases parts
    exact Quoting.read_shorter further

theorem next?_shorter (came : next? c rest = some (token, left)) : left.length ≤ rest.length := by
  unfold next? at came
  split at came
  · cases came
    exact List.length_dropWhile_le ..
  · split at came
    · cases came
      exact List.length_dropWhile_le ..
    · split at came
      · exact (textToken?_shorter came).le
      · split at came
        · cases came
          exact List.length_dropWhile_le ..
        · obtain ⟨mark, -, parts⟩ := Option.map_eq_some_iff.mp came
          cases parts
          exact Nat.le_refl _

theorem tokensWithin_eq (enough : t.length ≤ fuel) (also : t.length ≤ more) : tokensWithin fuel t = tokensWithin more t := by
  induction fuel generalizing t more with
  | zero =>
    cases List.eq_nil_of_length_eq_zero (Nat.le_zero.mp enough)
    cases more <;> rfl
  | succ fuel ih =>
    cases t with
    | nil => cases more <;> rfl
    | cons c rest =>
      cases more with
      | zero => cases also
      | succ more =>
        unfold tokensWithin
        cases came : next? c rest with
        | none => rfl
        | some found =>
          obtain ⟨token, left⟩ := found
          have shorter := next?_shorter came
          simp only [List.length_cons] at enough also
          have same : tokensWithin fuel left = tokensWithin more left := ih (by omega) (by omega)
          simp only [same]

def tokensIn (t : Text) : Option (List Token) := tokensWithin t.length t

theorem tokensIn_cons (c : Char) (rest : Text) : tokensIn (c :: rest) =
    (next? c rest).bind fun (token, left) => (tokensIn left).map (token :: ·) := by
  unfold tokensIn
  rw [List.length_cons, tokensWithin]
  cases came : next? c rest with
  | none => rfl
  | some found =>
    obtain ⟨token, left⟩ := found
    have same : tokensWithin rest.length left = tokensWithin left.length left :=
      tokensWithin_eq (next?_shorter came) (Nat.le_refl _)
    simp only [same, Option.bind_some]

theorem tokensIn_next (came : next? c rest = some (token, left)) :
    tokensIn (c :: rest) = (tokensIn left).map (token :: ·) := by
  rw [tokensIn_cons, came]
  rfl

section Quoted

def basic : Quoting := ⟨'"', true, false⟩

theorem read_step (stays : basic.close? inside (c :: rest) = none) (step : basic.step c inside = some (added, next)) :
    basic.read inside (c :: rest) = (basic.read next rest).map fun (t, left) => (added ++ t, left) := by
  rw [Quoting.read, stays, step]

theorem close?_plain (other : c ≠ '"') (inside : Inside) (rest : Text) : basic.close? inside (c :: rest) = none := by
  cases may : inside.mayEnd <;> simp [Quoting.close?, basic, may, other]

theorem close?_busy (busy : inside.mayEnd = false) (t : Text) : basic.close? inside t = none := by
  simp [Quoting.close?, busy]

def prepend (c : Char) : Text × Text → Text × Text := fun (t, left) => (c :: t, left)

theorem read_escape {d : Char} (escape : basic.step d .escaped = some ([c], .plain)) (rest : Text) :
    basic.read .plain ('\\' :: d :: rest) = (basic.read .plain rest).map (prepend c) := by
  rw [read_step (close?_plain (by decide) _ _) (show basic.step '\\' .plain = some ([], .escaped) from rfl),
    read_step (close?_busy rfl _) escape, Option.map_map]
  rfl

theorem read_escapedChar (kept : c.toNat ≠ 127) (rest : Text) :
    basic.read .plain (Json.escapedChar c ++ rest) = (basic.read .plain rest).map (prepend c) := by
  have escaped := Json.escapedChar_escaped c
  generalize Json.escapedChar c = t at escaped
  cases escaped with
  | letter listed =>
    have known : ∀ entry ∈ Json.letters, basic.step entry.1 .escaped = some ([entry.2], .plain) := by decide
    exact read_escape (known _ listed) rest
  | code small =>
    have high := Json.hexDigit?_hexChar (Nat.mod_lt (c.toNat / 16) (by decide))
    have low := Json.hexDigit?_hexChar (Nat.mod_lt c.toNat (by decide))
    have value : c.toNat / 16 % 16 * 16 + c.toNat % 16 = c.toNat := by omega
    have fifth : basic.step (Text.hexChar (c.toNat / 16 % 16)) (.code 2 0) = some ([], .code 1 (c.toNat / 16 % 16)) := by
      simp [Quoting.step, high]
    have sixth : basic.step (Text.hexChar (c.toNat % 16)) (.code 1 (c.toNat / 16 % 16)) = some ([c], .plain) := by
      have valid : c.toNat.isValidChar := c.valid
      simp [Quoting.step, low, value, Text.codePoint?, valid, Char.ofNat_toNat]
    simp only [List.cons_append, List.nil_append]
    rw [read_step (close?_plain (by decide) _ _) (show basic.step '\\' .plain = some ([], .escaped) from rfl),
      read_step (close?_busy rfl _) (show basic.step 'u' .escaped = some ([], .code 4 0) from rfl),
      read_step (close?_busy rfl _) (show basic.step '0' (.code 4 0) = some ([], .code 3 0) from rfl),
      read_step (close?_busy rfl _) (show basic.step '0' (.code 3 0) = some ([], .code 2 0) from rfl),
      read_step (close?_busy rfl _) fifth, read_step (close?_busy rfl _) sixth]
    simp only [Option.map_map]
    rfl
  | itself quote backslash large =>
    have plain : basic.step c .plain = some ([c], .plain) := by
      have newline : c ≠ '\n' := fun same => absurd large (by rw [same]; decide)
      have visible : isControl c = false := by simp [isControl, kept, Nat.not_lt_of_le large]
      simp [Quoting.step, Quoting.plainChar, basic, newline, backslash, visible]
    rw [List.singleton_append, read_step (close?_plain quote _ _) plain]
    rfl

theorem read_flatMap_escapedChar (kept : ∀ c ∈ t, c.toNat ≠ 127) (rest : Text) :
    basic.read .plain (t.flatMap Json.escapedChar ++ '"' :: rest) = some (t, rest) := by
  induction t with
  | nil => rfl
  | cons c t ih =>
    rw [List.forall_mem_cons] at kept
    rw [List.flatMap_cons, List.append_assoc, read_escapedChar kept.1, ih kept.2]
    rfl

theorem escapedChar_head (c : Char) : ∃ d rest, Json.escapedChar c = d :: rest ∧ d ≠ '"' := by
  have escaped := Json.escapedChar_escaped c
  generalize Json.escapedChar c = t at escaped
  cases escaped with
  | letter _ | code _ => exact ⟨_, _, rfl, by decide⟩
  | itself quote _ _ => exact ⟨_, _, rfl, quote⟩

-- Three quotes would open a text of several lines, so no other text may follow at once.
theorem next?_quotedText (kept : ∀ c ∈ t, c.toNat ≠ 127) (apart : rest.head? ≠ some '"') :
    next? '"' (t.flatMap Json.escapedChar ++ '"' :: rest) = some (.text t false, rest) := by
  have single : Text.after? ['"', '"'] (t.flatMap Json.escapedChar ++ '"' :: rest) = none := by
    cases t with
    | nil =>
      cases rest with
      | nil => rfl
      | cons d rest =>
        have other : ¬ '"' = d := fun same => apart (by rw [← same]; rfl)
        simp [Text.after?, other]
    | cons c t =>
      obtain ⟨d, behind, head, other⟩ := escapedChar_head c
      rw [List.flatMap_cons, head]
      exact if_neg (Ne.symm other)
  have read := read_flatMap_escapedChar kept rest
  unfold basic at read
  change textToken? '"' _ = _
  unfold textToken?
  rw [single]
  simp [read]

theorem tokensIn_quotedText (kept : ∀ c ∈ t, c.toNat ≠ 127) (apart : rest.head? ≠ some '"') :
    tokensIn (Json.quotedText t ++ rest) = (tokensIn rest).map (.text t false :: ·) := by
  have shape : Json.quotedText t ++ rest = '"' :: (t.flatMap Json.escapedChar ++ '"' :: rest) := by
    simp [Json.quotedText]
  rw [shape, tokensIn_next (next?_quotedText kept apart)]

end Quoted

end FieldGateway.Toml
