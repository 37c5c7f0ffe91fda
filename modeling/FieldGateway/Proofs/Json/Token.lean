import FieldGateway.Json.Token
import FieldGateway.Proofs.Json.Escape
import FieldGateway.Proofs.Json.Numeral

-- The text of a document is cut into the marks, words, numbers and texts that it was printed
-- from. Nothing that stands in a text can end it early.
namespace FieldGateway.Json

mutual
def tokens : Json → List Token
  | .null => [.null]
  | .bool b => [.bool b]
  | .number n => [.number n]
  | .text t => [.text t]
  | .array [] => [.openArray, .closeArray]
  | .array (item :: items) => .openArray :: tokens item ++ itemTokens items
  | .object [] => [.openObject, .closeObject]
  | .object ((key, value) :: fields) => .openObject :: .text key :: .colon :: tokens value ++ fieldTokens fields
def itemTokens : List Json → List Token
  | [] => [.closeArray]
  | item :: items => .comma :: tokens item ++ itemTokens items
def fieldTokens : List (Text × Json) → List Token
  | [] => [.closeObject]
  | (key, value) :: fields => .comma :: .text key :: .colon :: tokens value ++ fieldTokens fields
end

variable {lexeme next : Lexeme} {read rest : Text}

theorem tokensFrom?_step {ts : List Token} (step : lexeme.step c = some (ts, next)) (rest : Text) :
    tokensFrom? lexeme (c :: rest) = (tokensFrom? next rest).map (ts ++ ·) := by
  simp [tokensFrom?, step]

theorem tokensFrom?_silent (step : lexeme.step c = some ([], next)) (rest : Text) :
    tokensFrom? lexeme (c :: rest) = tokensFrom? next rest := by
  simp [tokensFrom?, step]

def Lexeme.after? (lexeme : Lexeme) : Text → Option Lexeme
  | [] => some lexeme
  | c :: rest =>
    match lexeme.step c with
    | some ([], next) => next.after? rest
    | _ => none

theorem tokensFrom?_after {chars : Text} (behind : lexeme.after? chars = some next) (rest : Text) :
    tokensFrom? lexeme (chars ++ rest) = tokensFrom? next rest := by
  induction chars generalizing lexeme with
  | nil =>
    cases behind
    rfl
  | cons c chars ih =>
    unfold Lexeme.after? at behind
    split at behind
    · rename_i step
      rw [List.cons_append, tokensFrom?_silent step]
      exact ih behind
    · cases behind

def Delimits (t : Text) : Prop := ∀ c ∈ t.head?, isNumberChar c = false ∧ c.isAlpha = false

theorem delimits_nil : Delimits [] := fun c first => by cases first

theorem delimits_cons (number : isNumberChar c = false) (alpha : c.isAlpha = false) : Delimits (c :: rest) := by
  intro d first
  cases first
  exact ⟨number, alpha⟩

theorem tokensFrom?_close {closed : List Token} (closes : lexeme.close? = some closed)
    (step : ∀ c ∈ rest.head?, lexeme.step c = (startLexeme c).map fun (opened, next) => (closed ++ opened, next)) :
    tokensFrom? lexeme rest = (tokensFrom? .between rest).map (closed ++ ·) := by
  cases rest with
  | nil =>
    unfold tokensFrom?
    rw [closes, show Lexeme.between.close? = some [] from rfl, Option.map_some, List.append_nil]
  | cons c rest =>
    have step := step c rfl
    have between : Lexeme.step c .between = startLexeme c := rfl
    unfold tokensFrom?
    rw [step, between]
    cases startLexeme c with
    | none => rfl
    | some found =>
      obtain ⟨opened, next⟩ := found
      simp only [Option.map_some, Option.map_map]
      congr 1
      funext ts
      exact List.append_assoc ..

theorem close_word {token : Token} (delimits : Delimits rest) (known : word? read.reverse = some token) :
    tokensFrom? (.word read) rest = (tokensFrom? .between rest).map (token :: ·) := by
  have closes : Lexeme.close? (.word read) = some [token] := by simp [Lexeme.close?, known]
  refine tokensFrom?_close closes fun c first => ?_
  have alpha := (delimits c first).2
  cases h : startLexeme c <;> simp [Lexeme.step, alpha, closes, h]

theorem close_number {n : Numeral} (delimits : Delimits rest) (known : Numeral.read? read.reverse = some n) :
    tokensFrom? (.number read) rest = (tokensFrom? .between rest).map (.number n :: ·) := by
  have closes : Lexeme.close? (.number read) = some [.number n] := by simp [Lexeme.close?, known]
  refine tokensFrom?_close closes fun c first => ?_
  have number := (delimits c first).1
  cases h : startLexeme c <;> simp [Lexeme.step, number, closes, h]

theorem tokensFrom?_numberChars (chars : Text) (number : ∀ c ∈ chars, isNumberChar c = true) :
    tokensFrom? (.number read) (chars ++ rest) = tokensFrom? (.number (chars.reverse ++ read)) rest := by
  induction chars generalizing read with
  | nil => rfl
  | cons c chars ih =>
    have step : Lexeme.step c (.number read) = some ([], .number (c :: read)) := by
      simp [Lexeme.step, number c List.mem_cons_self]
    rw [List.cons_append, tokensFrom?_silent step, ih fun d member => number d (List.mem_cons_of_mem _ member),
      List.reverse_cons, List.append_assoc]
    rfl

theorem startLexeme_number (first : (∃ d, c = Digit.char d) ∨ c = '-') :
    Lexeme.step c .between = some ([], .number [c]) := by
  rcases first with ⟨d, rfl⟩ | rfl
  · revert d
    decide
  · decide

theorem tokensFrom?_number (n : Numeral) (delimits : Delimits rest) :
    tokensFrom? .between (n.text ++ rest) = (tokensFrom? .between rest).map (.number n :: ·) := by
  obtain ⟨c, chars, text, first, number⟩ := n.text_chars
  have known := n.read?_text
  rw [text] at known ⊢
  rw [List.cons_append, tokensFrom?_silent (startLexeme_number first), tokensFrom?_numberChars chars number]
  exact close_number delimits (by rwa [List.reverse_append, List.reverse_reverse])

theorem tokensFrom?_word (word : Text) {token : Token} (behind : Lexeme.after? .between word = some (.word word.reverse))
    (known : word? word = some token) (delimits : Delimits rest) :
    tokensFrom? .between (word ++ rest) = (tokensFrom? .between rest).map (token :: ·) := by
  rw [tokensFrom?_after behind]
  exact close_word delimits (by rwa [List.reverse_reverse])

theorem after?_escaped (c : Char) (read : Text) :
    Lexeme.after? (.text read) (escapedChar c) = some (.text (c :: read)) := by
  have escaped := escapedChar_escaped c
  generalize escapedChar c = t at escaped
  cases escaped with
  | letter listed =>
    have known : ∀ entry ∈ letters, entry.1 ≠ 'u' ∧ escaped? entry.1 = some entry.2 := by decide
    simp [Lexeme.after?, Lexeme.step, known _ listed]
  | code small =>
    have high := hexDigit?_hexChar (Nat.mod_lt (c.toNat / 16) (by decide))
    have low := hexDigit?_hexChar (Nat.mod_lt c.toNat (by decide))
    have zero := hexDigit?_hexChar (n := 0) (by decide)
    have value : c.toNat / 16 % 16 * 16 + c.toNat % 16 = c.toNat := by omega
    have plain : ¬ (0xD800 ≤ c.toNat ∧ c.toNat ≤ 0xDBFF) ∧ ¬ (0xDC00 ≤ c.toNat ∧ c.toNat ≤ 0xDFFF) := by omega
    change Text.hexDigit? '0' = some 0 at zero
    simp [Lexeme.after?, Lexeme.step, high, low, zero, value, Lexeme.ofCode?, plain.1, plain.2]
  | itself quote backslash large =>
    have printed : ¬ c.toNat < 32 := Nat.not_lt_of_le large
    simp [Lexeme.after?, Lexeme.step, quote, backslash, printed]

theorem tokensFrom?_escaped (t read rest : Text) :
    tokensFrom? (.text read) (t.flatMap escapedChar ++ rest) = tokensFrom? (.text (t.reverse ++ read)) rest := by
  induction t generalizing read with
  | nil => rfl
  | cons c t ih =>
    rw [List.flatMap_cons, List.append_assoc, tokensFrom?_after (after?_escaped c read), ih, List.reverse_cons,
      List.append_assoc]
    rfl

theorem tokensFrom?_quoted (t rest : Text) :
    tokensFrom? .between (quotedText t ++ rest) = (tokensFrom? .between rest).map (.text t :: ·) := by
  have opens : Lexeme.step '"' .between = some ([], .text []) := by decide
  have closes : Lexeme.step '"' (.text (t.reverse ++ [])) = some ([.text t], .between) := by simp [Lexeme.step]
  unfold quotedText
  rw [List.cons_append, List.cons_append, List.append_assoc, tokensFrom?_silent opens, tokensFrom?_escaped]
  exact tokensFrom?_step closes rest

theorem tokensFrom?_mark (c : Char) (token : Token) (step : Lexeme.step c .between = some ([token], .between)) (rest : Text) :
    tokensFrom? .between (c :: rest) = (tokensFrom? .between rest).map (token :: ·) :=
  tokensFrom?_step step rest

theorem delimits_items (items : List Json) (rest : Text) : Delimits (renderItems items ++ rest) := by
  cases items with
  | nil => exact delimits_cons (by decide) (by decide)
  | cons item items => exact delimits_cons (by decide) (by decide)

theorem delimits_fields (fields : List (Text × Json)) (rest : Text) : Delimits (renderFields fields ++ rest) := by
  cases fields with
  | nil => exact delimits_cons (by decide) (by decide)
  | cons field fields => exact delimits_cons (by decide) (by decide)

theorem tokensFrom?_comma (rest : Text) : tokensFrom? .between (',' :: rest) = (tokensFrom? .between rest).map (.comma :: ·) :=
  tokensFrom?_mark ',' .comma (by decide) rest

theorem tokensFrom?_key (key rest : Text) :
    tokensFrom? .between (quotedText key ++ ':' :: rest) = (tokensFrom? .between rest).map (.text key :: .colon :: ·) := by
  rw [tokensFrom?_quoted, tokensFrom?_mark ':' .colon (by decide), Option.map_map]
  rfl

-- A document's text gives its tokens, whatever delimits it.
mutual
theorem tokensFrom?_render (j : Json) (rest : Text) (delimits : Delimits rest) :
    tokensFrom? .between (render j ++ rest) = (tokensFrom? .between rest).map (tokens j ++ ·) := by
  match j with
  | .null => exact tokensFrom?_word ['n', 'u', 'l', 'l'] (by decide) (by decide) delimits
  | .bool true => exact tokensFrom?_word ['t', 'r', 'u', 'e'] (by decide) (by decide) delimits
  | .bool false => exact tokensFrom?_word ['f', 'a', 'l', 's', 'e'] (by decide) (by decide) delimits
  | .number n => exact tokensFrom?_number n delimits
  | .text t => exact tokensFrom?_quoted t rest
  | .array [] =>
    have opens := tokensFrom?_mark '[' .openArray (by decide) (']' :: rest)
    rw [tokensFrom?_mark ']' .closeArray (by decide), Option.map_map] at opens
    exact opens
  | .array (item :: items) =>
    have head := tokensFrom?_render item (renderItems items ++ rest) (delimits_items items rest)
    have behind := tokensFrom?_renderItems items rest
    have opens := tokensFrom?_mark '[' .openArray (by decide)
    simp [render, tokens, opens, head, behind, Option.map_map, Function.comp_def]
  | .object [] =>
    have opens := tokensFrom?_mark '{' .openObject (by decide) ('}' :: rest)
    rw [tokensFrom?_mark '}' .closeObject (by decide), Option.map_map] at opens
    exact opens
  | .object ((key, value) :: fields) =>
    have head := tokensFrom?_render value (renderFields fields ++ rest) (delimits_fields fields rest)
    have behind := tokensFrom?_renderFields fields rest
    have opens := tokensFrom?_mark '{' .openObject (by decide)
    simp [render, tokens, opens, tokensFrom?_key, head, behind, Option.map_map, Function.comp_def]
theorem tokensFrom?_renderItems (items : List Json) (rest : Text) :
    tokensFrom? .between (renderItems items ++ rest) = (tokensFrom? .between rest).map (itemTokens items ++ ·) := by
  match items with
  | [] => exact tokensFrom?_mark ']' .closeArray (by decide) rest
  | item :: items =>
    have head := tokensFrom?_render item (renderItems items ++ rest) (delimits_items items rest)
    have behind := tokensFrom?_renderItems items rest
    simp [renderItems, itemTokens, tokensFrom?_comma, head, behind, Option.map_map, Function.comp_def]
theorem tokensFrom?_renderFields (fields : List (Text × Json)) (rest : Text) :
    tokensFrom? .between (renderFields fields ++ rest) = (tokensFrom? .between rest).map (fieldTokens fields ++ ·) := by
  match fields with
  | [] => exact tokensFrom?_mark '}' .closeObject (by decide) rest
  | (key, value) :: fields =>
    have head := tokensFrom?_render value (renderFields fields ++ rest) (delimits_fields fields rest)
    have behind := tokensFrom?_renderFields fields rest
    simp [renderFields, fieldTokens, tokensFrom?_comma, tokensFrom?_key, head, behind, Option.map_map,
      Function.comp_def]
end

theorem tokens?_render (j : Json) : tokens? (render j) = some (tokens j) := by
  have whole := tokensFrom?_render j [] delimits_nil
  rw [List.append_nil] at whole
  unfold tokens?
  rw [whole]
  simp [tokensFrom?, Lexeme.close?]

end FieldGateway.Json
