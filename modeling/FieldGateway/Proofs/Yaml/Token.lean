import FieldGateway.Proofs.Json.Document
import FieldGateway.Proofs.Yaml.Document
import FieldGateway.Proofs.Yaml.Scalar
import FieldGateway.Yaml.Token

-- Every compact JSON document is a YAML document in flow style, as long as none of its keys is
-- too long and its collections are not too deep.
namespace FieldGateway.Yaml

namespace Lexer

def Free (keys : List (Option KeyPlace)) : Prop := ∀ place ∈ keys, ∀ p ∈ place, p.required = false

-- Between two tokens: the text that is left, how many collections are open, and the tokens so
-- far. No block is open.
structure Stands (rest : Text) (flow : Nat) (ts : List Token) (l : Lexer) : Prop where
  rest : l.cursor.rest = rest
  flow : l.flow = flow
  tokens : l.tokens.toList = ts
  indent : l.indent = -1
  indents : l.indents = []
  free : Free l.keys

def fresh (l : Lexer) : Lexer := { l with keys := l.keys.map fun place => place.filter fun p => !isStale l.cursor p }

variable {d : Char} {t key rest left : Text} {flow : Nat} {ts : List Token} {l : Lexer} {kind later : Lexer → Prop}
  {answer : Option (List Token)}

section Turns

theorem Stands.cursor (stands : Stands rest flow ts l) : l.cursor = l.cursor.onward rest 0 :=
  (Cursor.onward_zero stands.rest).symm

theorem Stands.char (stands : Stands (d :: rest) flow ts l) : l.cursor.char = d := by
  rw [stands.cursor, Cursor.onward_char]

theorem Stands.fresh (stands : Stands rest flow ts l) : Stands rest flow ts l.fresh where
  rest := stands.rest
  flow := stands.flow
  tokens := stands.tokens
  indent := stands.indent
  indents := stands.indents
  free := by
    intro place member p kept
    obtain ⟨before, earlier, rfl⟩ := List.mem_map.mp member
    exact stands.free before earlier p (Option.mem_filter_iff.mp kept).1

theorem Stands.dropStale (stands : Stands rest flow ts l) : l.dropStale = some l.fresh := by
  have free : l.keys.any (fun place => place.any fun p => isStale l.cursor p && p.required) = false := by
    rw [List.any_eq_false]
    intro place member
    cases place with
    | none => simp
    | some p => simp [stands.free _ member p rfl]
  simp [Lexer.dropStale, free, Lexer.fresh]

theorem Stands.skipGaps (stands : Stands rest flow ts l) (solid : ∀ d ∈ rest.head?, isGap d = false ∧ d ≠ '#')
    (fuel : Nat) : l.skipGaps (fuel + 1) = l := by
  rw [Lexer.skipGaps, stands.cursor]
  cases rest with
  | nil => simp [blankSkipped, Cursor.onward, Cursor.char, isBreak, endMark]
  | cons d rest =>
    obtain ⟨solid, comment⟩ := solid d rfl
    simp only [isGap, isSpace, isBreakOrEnd, Bool.or_eq_false_iff, decide_eq_false_iff_not] at solid
    simp [blankSkipped, solid, comment]

theorem Stands.closeBlocks (stands : Stands rest flow ts l) (column : Int) : l.closeBlocks column = l := by
  rw [Lexer.closeBlocks, stands.indents]
  simp [closeBlocks.close]

theorem Stands.run (stands : Stands (d :: rest) flow ts l) (solid : isGap d = false) (comment : d ≠ '#') (fuel : Nat) :
    l.run (fuel + 1) = match l.fresh.next with | none => none | some l => l.run fuel := by
  have going : isEnd l.fresh.cursor.char = false := by
    rw [stands.fresh.char]
    simp only [isGap, isBreakOrEnd, Bool.or_eq_false_iff] at solid
    exact solid.2.2
  rw [Lexer.run, stands.skipGaps (by simpa using ⟨solid, comment⟩), stands.dropStale]
  simp only [stands.fresh.closeBlocks, going]
  rfl

theorem Stands.dropKey (stands : Stands rest flow ts l) : ∃ keys, l.dropKey = some { l with keys := keys } ∧ Free keys := by
  have free := stands.free
  unfold Lexer.dropKey
  split
  · rename_i p more keys
    rw [keys] at free
    have required := free _ List.mem_cons_self p rfl
    refine ⟨none :: more, by simp [required], ?_⟩
    intro place member q here
    rcases List.mem_cons.mp member with rfl | member
    · cases here
    · exact free place (List.mem_cons_of_mem _ member) q here
  · exact ⟨l.keys, rfl, free⟩

theorem Stands.saveKey (stands : Stands rest flow ts l) :
    ∃ keys, l.saveKey = some { l with keys := keys } ∧ Free keys ∧ (l.keyAllowed = true →
      keys.head? = some (some ⟨false, ts.length, l.cursor.index, l.cursor.line, l.cursor.column⟩)) := by
  by_cases allowed : l.keyAllowed = true
  · obtain ⟨keys, dropped, free⟩ := stands.dropKey
    have outside : (l.indent == (l.cursor.column : Int)) = false := by
      rw [stands.indent, beq_eq_false_iff_ne]
      omega
    rw [← stands.tokens, Array.length_toList]
    refine ⟨_, by simp only [Lexer.saveKey, allowed, dropped, outside, Bool.and_false]; rfl, ?_, fun _ => rfl⟩
    intro place member q here
    rcases List.mem_cons.mp member with rfl | member
    · cases here
      rfl
    · exact free place (List.mem_of_mem_drop member) q here
  · exact ⟨l.keys, if_neg allowed, stands.free, fun whether => absurd whether allowed⟩

theorem Stands.run_end (stands : Stands [] flow ts l) (fuel : Nat) : l.run (fuel + 1) = some ts := by
  obtain ⟨keys, dropped, _⟩ := stands.fresh.dropKey
  have ended : isEnd l.fresh.cursor.char = true := by
    rw [stands.fresh.cursor]
    rfl
  rw [Lexer.run, stands.skipGaps (by simp), stands.dropStale]
  simp [stands.fresh.closeBlocks, ended, finish, dropped, stands.fresh.tokens]

end Turns

section Tokens

def StandsAtKey (rest : Text) (flow : Nat) (ts : List Token) (l : Lexer) : Prop :=
  Stands rest flow ts l ∧ l.keyAllowed = true

def StandsBehindKey (rest : Text) (flow : Nat) (ts : List Token) (key : Text) (l : Lexer) : Prop :=
  Stands rest flow (ts ++ [.scalar false key]) l ∧ l.adjacent = l.cursor.index ∧
    ∃ place, l.keys.head? = some (some place) ∧ place.position = ts.length ∧ isStale l.cursor place = false

theorem StandsBehindKey.fresh (stands : StandsBehindKey rest flow ts key l) : StandsBehindKey rest flow ts key l.fresh := by
  obtain ⟨between, adjacent, place, top, position, current⟩ := stands
  refine ⟨between.fresh, adjacent, place, ?_, position, current⟩
  simp [Lexer.fresh, top, current]

theorem Cursor.skip_rest {c : Cursor} (stands : c.rest = d :: rest) : c.skip.rest = rest := by
  unfold Cursor.skip
  split <;> simp [stands]

theorem Stands.openFlow (stands : Stands (d :: rest) flow ts l) (room : flow < deepestFlow) (token : Token) :
    ∃ l', l.openFlow token = some l' ∧ StandsAtKey rest (flow + 1) (ts ++ [token]) l' := by
  obtain ⟨keys, saved, free, _⟩ := stands.saveKey
  have shallow : ¬ deepestFlow ≤ l.flow := by rw [stands.flow]; omega
  refine ⟨{ l with
    cursor := l.cursor.skip
    tokens := l.tokens.push token
    keyAllowed := true
    keys := none :: keys
    flow := l.flow + 1 }, ?_, ⟨Cursor.skip_rest stands.rest, ?_, ?_, stands.indent, stands.indents, ?_⟩, rfl⟩
  · simp [Lexer.openFlow, saved, shallow, push, skip, Cursor.advance]
  · simp [stands.flow]
  · simp [stands.tokens]
  · simpa [Free] using free

theorem Stands.closeFlow (stands : Stands (d :: rest) (flow + 1) ts l) (token : Token) :
    ∃ l', l.closeFlow token = some l' ∧ Stands rest flow (ts ++ [token]) l' := by
  obtain ⟨keys, dropped, free⟩ := stands.dropKey
  have inside : 0 < l.flow := by rw [stands.flow]; omega
  refine ⟨{ l with
    cursor := l.cursor.skip
    tokens := l.tokens.push token
    keyAllowed := false
    keys := keys.drop 1
    flow := l.flow - 1 }, ?_, Cursor.skip_rest stands.rest, ?_, ?_, stands.indent, stands.indents, ?_⟩
  · simp [Lexer.closeFlow, dropped, inside, push, skip, allowKey, Cursor.advance]
  · simp [stands.flow]
  · simp [stands.tokens]
  · exact fun place member => free place (List.mem_of_mem_drop member)

theorem Stands.flowEntry (stands : Stands (d :: rest) flow ts l) :
    ∃ l', l.flowEntry = some l' ∧ StandsAtKey rest flow (ts ++ [.flowEntry]) l' := by
  obtain ⟨keys, dropped, free⟩ := stands.dropKey
  refine ⟨{ l with
    cursor := l.cursor.skip
    tokens := l.tokens.push .flowEntry
    keyAllowed := true
    keys := keys }, ?_, ⟨Cursor.skip_rest stands.rest, stands.flow, ?_, stands.indent, stands.indents, free⟩, rfl⟩
  · simp [Lexer.flowEntry, dropped, push, skip, allowKey, Cursor.advance]
  · simp [stands.tokens]

theorem Stands.plainToken (stands : Stands (t ++ rest) flow ts l) (present : t ≠ []) (ordinary : ∀ d ∈ t, isOrdinary d = true)
    (ends : Ends (0 < flow) rest) (unmarked : l.cursor.atDocumentMark = false) :
    ∃ l', l.plainToken = some l' ∧ Stands rest flow (ts ++ [.scalar true t]) l' := by
  obtain ⟨keys, saved, free, _⟩ := stands.saveKey
  rw [stands.cursor] at unmarked
  have read := plain_word present ordinary ends (l.indent + 1) unmarked
  rw [← stands.cursor, ← stands.flow] at read
  refine ⟨{ l with
    cursor := l.cursor.onward rest (0 + t.length)
    tokens := l.tokens.push (.scalar true t)
    keyAllowed := false
    keys := keys }, ?_, rfl, stands.flow, ?_, stands.indent, stands.indents, free⟩
  · simp [Lexer.plainToken, saved, read, push, allowKey]
  · simp [stands.tokens]

theorem Stands.quotedToken (stands : Stands (Json.quotedText t ++ rest) flow ts l) :
    ∃ l', l.quotedToken false = some l' ∧ Stands rest flow (ts ++ [.scalar false t]) l' ∧
      (l.keyAllowed = true → (Json.quotedText t).length ≤ longestKey → StandsBehindKey rest flow ts t l') := by
  obtain ⟨keys, saved, free, top⟩ := stands.saveKey
  have read := quotedScalar_quotedText l.cursor t rest 0
  rw [← stands.cursor, Nat.zero_add] at read
  have between : Stands rest flow (ts ++ [.scalar false t]) { l with
      cursor := l.cursor.onward rest (Json.quotedText t).length
      tokens := l.tokens.push (.scalar false t)
      keyAllowed := false
      keys := keys
      adjacent := (l.cursor.onward rest (Json.quotedText t).length).index } :=
    ⟨rfl, stands.flow, by simp [stands.tokens], stands.indent, stands.indents, free⟩
  refine ⟨_, ?_, between, fun allowed short => ⟨between, rfl, _, top allowed, rfl, ?_⟩⟩
  · simp [Lexer.quotedToken, saved, read, push, allowKey]
  · simp [isStale, Cursor.onward, short]

-- The mark of a key goes in front of its text, which has been read by then.
theorem StandsBehindKey.colon (stands : StandsBehindKey (':' :: rest) (flow + 1) ts key l) :
    ∃ l', l.colon = some l' ∧ Stands rest (flow + 1) (ts ++ [.key, .scalar false key, .value]) l' := by
  obtain ⟨between, adjacent, place, top, position, current⟩ := stands
  obtain ⟨keys, places⟩ : ∃ keys, l.keys = some place :: keys := ⟨l.keys.tail, (List.cons_head?_tail top).symm⟩
  have inside : ¬ l.flow = 0 := by rw [between.flow]; omega
  have tokens := between.tokens
  refine ⟨{ l with
    cursor := l.cursor.skip
    tokens := ((l.tokens.extract 0 ts.length).push .key ++ l.tokens.extract ts.length l.tokens.size).push .value
    keyAllowed := false
    keys := none :: keys }, ?_, Cursor.skip_rest between.rest, between.flow, ?_, between.indent, between.indents, ?_⟩
  · simp [Lexer.colon, places, insertAt, openBlock, inside, position, push, skip, allowKey, Cursor.advance]
  · have size : l.tokens.size = ts.length + 1 := by rw [← Array.length_toList, tokens]; simp
    simp [Array.toList_extract, tokens, List.extract_eq_take_drop, size]
  · have free := between.free
    rw [places] at free
    intro p member q here
    rcases List.mem_cons.mp member with rfl | member
    · cases here
    · exact free p (List.mem_cons_of_mem _ member) q here

theorem Stands.next_bracket (stands : Stands ('[' :: rest) flow ts l) : l.next = l.openFlow .flowSequence := by
  simp [Lexer.next, stands.char, Cursor.atMark]

theorem Stands.next_closingBracket (stands : Stands (']' :: rest) flow ts l) : l.next = l.closeFlow .flowSequenceEnd := by
  simp [Lexer.next, stands.char, Cursor.atMark]

theorem Stands.next_brace (stands : Stands ('{' :: rest) flow ts l) : l.next = l.openFlow .flowMapping := by
  simp [Lexer.next, stands.char, Cursor.atMark]

theorem Stands.next_closingBrace (stands : Stands ('}' :: rest) flow ts l) : l.next = l.closeFlow .flowMappingEnd := by
  simp [Lexer.next, stands.char, Cursor.atMark]

theorem Stands.next_comma (stands : Stands (',' :: rest) flow ts l) : l.next = l.flowEntry := by
  simp [Lexer.next, stands.char, Cursor.atMark]

theorem Stands.next_quote (stands : Stands ('"' :: rest) flow ts l) : l.next = l.quotedToken false := by
  simp [Lexer.next, stands.char, Cursor.atMark]

theorem StandsBehindKey.next (stands : StandsBehindKey (':' :: rest) (flow + 1) ts key l) : l.next = l.colon := by
  have inside : 0 < l.flow := by rw [stands.1.flow]; omega
  simp [Lexer.next, stands.1.char, Cursor.atMark, stands.2.1, inside]

def BeginsPlain : Text → Prop
  | [] => False
  | d :: rest => d.isAlphanum = true ∨ d = '-' ∧ ∃ e more, rest = e :: more ∧ e.isDigit = true

theorem Stands.next_plain (stands : Stands rest flow ts l) (begins : BeginsPlain rest) :
    l.next = l.plainToken ∧ l.cursor.atDocumentMark = false := by
  cases rest with
  | nil => cases begins
  | cons d rest =>
    rcases begins with letter | ⟨rfl, e, more, rfl, digit⟩
    · have other (e : Char) (mark : e.isAlphanum = false) : d ≠ e := fun same => by simp [same, mark] at letter
      have tick : d.toNat ≠ 96 := fun same => other (Char.ofNat 96) (by decide) (by rw [← same, Char.ofNat_toNat])
      constructor <;>
        simp (disch := decide) [Lexer.next, stands.char, Cursor.atDocumentMark, Cursor.atMark, other, tick]
    · have other (f : Char) (mark : f.isDigit = false) : e ≠ f := fun same => by simp [same, mark] at digit
      have solid : isGap e = false := by
        simp (disch := decide) [isGap, isSpace, isBreakOrEnd, isBreak, isEnd, other]
      have second : l.cursor.peek 1 = e := by
        rw [stands.cursor]
        rfl
      constructor <;>
        simp (disch := decide) [Lexer.next, stands.char, Cursor.atDocumentMark, Cursor.atMark, second, solid, other]

end Tokens

section Runs

def Yields (kind : Lexer → Prop) (answer : Option (List Token)) : Prop :=
  ∀ l fuel, kind l → l.cursor.rest.length < fuel → l.run fuel = answer

theorem Yields.of_imp (behind : Yields later answer) (narrower : ∀ l, kind l → later l) : Yields kind answer :=
  fun l fuel known enough => behind l fuel (narrower l known) enough

theorem yields_step (solid : isGap d = false ∧ d ≠ '#') (stands : ∀ l, kind l → Stands (d :: rest) flow ts l)
    (turn : ∀ l, kind l → ∃ l', l.fresh.next = some l' ∧ later l')
    (shorter : ∀ l, later l → l.cursor.rest.length ≤ rest.length) (behind : Yields later answer) : Yields kind answer := by
  intro l fuel known enough
  obtain ⟨l', came, holds⟩ := turn l known
  have shorter := shorter l' holds
  have between := stands l known
  rw [between.rest, List.length_cons] at enough
  obtain ⟨fuel, rfl⟩ := Nat.exists_eq_add_one.mpr (Nat.zero_lt_of_lt enough)
  rw [between.run solid.1 solid.2, came]
  exact behind l' fuel holds (by omega)

theorem yields_mark (solid : isGap d = false ∧ d ≠ '#')
    (turn : ∀ l, Stands (d :: rest) flow ts l → ∃ l', l.next = some l' ∧ later l')
    (stops : ∀ l, later l → l.cursor.rest = rest) (behind : Yields later answer) : Yields (Stands (d :: rest) flow ts) answer :=
  yields_step solid (fun _ stands => stands) (fun l stands => turn l.fresh stands.fresh)
    (fun l holds => Nat.le_of_eq (congrArg List.length (stops l holds))) behind

theorem yields_bracket (room : flow < deepestFlow)
    (behind : Yields (Stands rest (flow + 1) (ts ++ [.flowSequence])) answer) : Yields (Stands ('[' :: rest) flow ts) answer := by
  refine yields_mark (by decide) (fun l stands => ?_) (fun _ holds => holds.rest) behind
  obtain ⟨l', opened, holds⟩ := stands.openFlow room .flowSequence
  exact ⟨l', stands.next_bracket.trans opened, holds.1⟩

theorem yields_brace (room : flow < deepestFlow)
    (behind : Yields (StandsAtKey rest (flow + 1) (ts ++ [.flowMapping])) answer) :
    Yields (Stands ('\x7b' :: rest) flow ts) answer := by
  refine yields_mark (by decide) (fun l stands => ?_) (fun _ holds => holds.1.rest) behind
  rw [stands.next_brace]
  exact stands.openFlow room .flowMapping

theorem yields_closingBracket (behind : Yields (Stands rest flow (ts ++ [.flowSequenceEnd])) answer) :
    Yields (Stands (']' :: rest) (flow + 1) ts) answer := by
  refine yields_mark (by decide) (fun l stands => ?_) (fun _ holds => holds.rest) behind
  rw [stands.next_closingBracket]
  exact stands.closeFlow .flowSequenceEnd

theorem yields_closingBrace (behind : Yields (Stands rest flow (ts ++ [.flowMappingEnd])) answer) :
    Yields (Stands ('\x7d' :: rest) (flow + 1) ts) answer := by
  refine yields_mark (by decide) (fun l stands => ?_) (fun _ holds => holds.rest) behind
  rw [stands.next_closingBrace]
  exact stands.closeFlow .flowMappingEnd

theorem yields_comma (behind : Yields (StandsAtKey rest flow (ts ++ [.flowEntry])) answer) :
    Yields (Stands (',' :: rest) flow ts) answer := by
  refine yields_mark (by decide) (fun l stands => ?_) (fun _ holds => holds.1.rest) behind
  rw [stands.next_comma]
  exact stands.flowEntry

theorem yields_plain (begins : BeginsPlain (t ++ rest)) (present : t ≠ []) (ordinary : ∀ d ∈ t, isOrdinary d = true)
    (ends : Ends (0 < flow) rest) (behind : Yields (Stands rest flow (ts ++ [.scalar true t])) answer) :
    Yields (Stands (t ++ rest) flow ts) answer := by
  obtain ⟨d, more, rfl⟩ := List.exists_cons_of_ne_nil present
  have first := ordinary d List.mem_cons_self
  simp only [isOrdinary, Bool.and_eq_true, Bool.not_eq_true', bne_iff_ne] at first
  refine yields_step ⟨first.1.1.1, first.2⟩ (fun _ stands => stands) (fun l stands => ?_)
    (fun l holds => ?_) behind
  · obtain ⟨plain, unmarked⟩ := stands.fresh.next_plain begins
    rw [plain]
    exact stands.fresh.plainToken present ordinary ends unmarked
  · rw [Stands.rest holds]
    change rest.length ≤ (more ++ rest).length
    rw [List.length_append]
    exact Nat.le_add_left ..

theorem yields_quoted (stands : ∀ l, kind l → Stands (Json.quotedText t ++ rest) flow ts l)
    (turn : ∀ l, kind l → ∃ l', l.fresh.quotedToken false = some l' ∧ later l')
    (stops : ∀ l, later l → l.cursor.rest = rest) (behind : Yields later answer) : Yields kind answer := by
  refine yields_step (d := '"') (by decide) stands (fun l known => ?_) (fun l holds => ?_) behind
  · rw [(stands l known).fresh.next_quote]
    exact turn l known
  · rw [stops l holds]
    simp
    omega

theorem yields_text (behind : Yields (Stands rest flow (ts ++ [.scalar false t])) answer) :
    Yields (Stands (Json.quotedText t ++ rest) flow ts) answer := by
  refine yields_quoted (fun _ stands => stands) (fun l stands => ?_) (fun _ holds => holds.rest) behind
  obtain ⟨l', read, holds, _⟩ := stands.fresh.quotedToken
  exact ⟨l', read, holds⟩

theorem yields_key (short : (Json.quotedText key).length ≤ longestKey)
    (behind : Yields (Stands rest (flow + 1) (ts ++ [.key, .scalar false key, .value])) answer) :
    Yields (StandsAtKey (Json.quotedText key ++ ':' :: rest) (flow + 1) ts) answer := by
  have colon : Yields (StandsBehindKey (':' :: rest) (flow + 1) ts key) answer := by
    refine yields_step (by decide) (fun _ stands => stands.1) (fun l stands => ?_)
      (fun _ holds => Nat.le_of_eq (congrArg List.length holds.rest)) behind
    rw [stands.fresh.next]
    exact stands.fresh.colon
  refine yields_quoted (fun _ stands => stands.1) (fun l stands => ?_) (fun _ holds => holds.1.rest) colon
  obtain ⟨l', read, _, known⟩ := stands.1.fresh.quotedToken
  exact ⟨l', read, known stands.2 short⟩

theorem isOrdinary_number (number : Json.isNumberChar d = true) : isOrdinary d = true := by
  have other (e : Char) (mark : Json.isNumberChar e = false) : d ≠ e := fun same => by simp [same, mark] at number
  simp (disch := decide) [isOrdinary, isGap, isSpace, isBreakOrEnd, isBreak, isEnd, isFlowMark, other]

theorem yields_number (n : Json.Numeral) (ends : Ends (0 < flow) rest)
    (behind : Yields (Stands rest flow (ts ++ [.scalar true n.text])) answer) : Yields (Stands (n.text ++ rest) flow ts) answer := by
  have begins : BeginsPlain (n.text ++ rest) := by
    obtain ⟨d, more, first⟩ := Json.Numeral.ofNat_first n.whole
    rw [Json.Numeral.text_eq, first]
    cases n.negative with
    | false =>
      refine .inl ?_
      simp [Char.isAlphanum, Digit.char_isDigit]
    | true => exact .inr ⟨rfl, _, _, rfl, Digit.char_isDigit d⟩
  obtain ⟨d, more, shown, first, number⟩ := n.text_chars
  refine yields_plain begins (by rw [shown]; nofun) ?_ ends behind
  rw [shown, List.forall_mem_cons]
  refine ⟨isOrdinary_number ?_, fun e member => isOrdinary_number (number e member)⟩
  rcases first with ⟨digit, rfl⟩ | rfl
  · simp [Json.isNumberChar, Digit.char_isDigit]
  · decide

end Runs

section Documents

mutual
def keysOf : Json → List Text
  | .array items => keysOfItems items
  | .object fields => keysOfFields fields
  | _ => []
def keysOfItems : List Json → List Text
  | [] => []
  | item :: items => keysOf item ++ keysOfItems items
def keysOfFields : List (Text × Json) → List Text
  | [] => []
  | (key, value) :: fields => key :: (keysOf value ++ keysOfFields fields)
end

def Short (keys : List Text) : Prop := ∀ key ∈ keys, (Json.quotedText key).length ≤ longestKey

theorem ends_items (items : List Json) (rest : Text) : Ends (0 < flow + 1) (Json.renderItems items ++ rest) := by
  cases items <;> simp [Ends, Json.renderItems, isFlowMark]

theorem ends_fields (fields : List (Text × Json)) (rest : Text) : Ends (0 < flow + 1) (Json.renderFields fields ++ rest) := by
  rcases fields with _ | ⟨⟨key, value⟩, fields⟩ <;> simp [Ends, Json.renderFields, isFlowMark]

-- What comes behind the tokens of a document comes behind its text.
mutual
theorem yields_render (j : Json) (rest : Text) (flow : Nat) (ts : List Token) (short : Short (keysOf j))
    (room : flow + j.depth ≤ deepestFlow) (ends : Ends (0 < flow) rest)
    (behind : Yields (Stands rest flow (ts ++ flowTokens j)) answer) :
    Yields (Stands (Json.render j ++ rest) flow ts) answer := by
  match j with
  | .null | .bool true | .bool false =>
    exact yields_plain (.inl (by decide)) (by decide) (List.all_eq_true.mp (by decide)) ends behind
  | .number n => exact yields_number n ends behind
  | .text t => exact yields_text behind
  | .array [] =>
    refine yields_bracket (by simp only [Json.depth] at room; omega) (yields_closingBracket ?_)
    simpa [flowTokens] using behind
  | .array (item :: items) =>
    simp only [Json.depth, Json.itemsDepth] at room
    rw [keysOf, keysOfItems, Short, List.forall_mem_append] at short
    have later := yields_renderItems items rest flow (ts ++ [.flowSequence] ++ flowTokens item) short.2 (by omega)
      (by simpa [flowTokens] using behind)
    have now := yields_render item _ (flow + 1) _ short.1 (by omega) (ends_items items rest) later
    simpa [Json.render] using yields_bracket (by omega) now
  | .object [] =>
    refine yields_brace (by simp only [Json.depth] at room; omega) (.of_imp (yields_closingBrace ?_) fun _ stands => stands.1)
    simpa [flowTokens] using behind
  | .object ((key, value) :: fields) =>
    simp only [Json.depth, Json.fieldsDepth] at room
    rw [keysOf, keysOfFields, Short, List.forall_mem_cons, List.forall_mem_append] at short
    have later := yields_renderFields fields rest flow
      (ts ++ [.flowMapping] ++ [.key, .scalar false key, .value] ++ flowTokens value) short.2.2 (by omega)
      (by simpa [flowTokens] using behind)
    have now := yields_render value _ (flow + 1) _ short.2.1 (by omega) (ends_fields fields rest) later
    simpa [Json.render] using yields_brace (by omega) (yields_key short.1 now)
theorem yields_renderItems (items : List Json) (rest : Text) (flow : Nat) (ts : List Token) (short : Short (keysOfItems items))
    (room : flow + 1 + Json.itemsDepth items ≤ deepestFlow)
    (behind : Yields (Stands rest flow (ts ++ itemTokens items)) answer) :
    Yields (Stands (Json.renderItems items ++ rest) (flow + 1) ts) answer := by
  match items with
  | [] => exact yields_closingBracket behind
  | item :: items =>
    rw [Json.itemsDepth] at room
    rw [keysOfItems, Short, List.forall_mem_append] at short
    have later := yields_renderItems items rest flow (ts ++ [.flowEntry] ++ flowTokens item) short.2 (by omega)
      (by simpa [itemTokens] using behind)
    have now := yields_render item _ (flow + 1) _ short.1 (by omega) (ends_items items rest) later
    simpa [Json.renderItems] using yields_comma (now.of_imp fun _ stands => stands.1)
theorem yields_renderFields (fields : List (Text × Json)) (rest : Text) (flow : Nat) (ts : List Token)
    (short : Short (keysOfFields fields)) (room : flow + 1 + Json.fieldsDepth fields ≤ deepestFlow)
    (behind : Yields (Stands rest flow (ts ++ fieldTokens fields)) answer) :
    Yields (Stands (Json.renderFields fields ++ rest) (flow + 1) ts) answer := by
  match fields with
  | [] => exact yields_closingBrace behind
  | (key, value) :: fields =>
    rw [Json.fieldsDepth] at room
    rw [keysOfFields, Short, List.forall_mem_cons, List.forall_mem_append] at short
    have later := yields_renderFields fields rest flow
      (ts ++ [.flowEntry] ++ [.key, .scalar false key, .value] ++ flowTokens value) short.2.2 (by omega)
      (by simpa [fieldTokens] using behind)
    have now := yields_render value _ (flow + 1) _ short.2.1 (by omega) (ends_fields fields rest) later
    simpa [Json.renderFields] using yields_comma (yields_key short.1 now)
end

end Documents

end Lexer

theorem tokens?_render (j : Json) (short : Lexer.Short (Lexer.keysOf j)) (shallow : j.depth ≤ Lexer.deepestFlow) :
    tokens? (Json.render j) = some (flowTokens j) := by
  have begins : Lexer.Stands (Json.render j ++ []) 0 [] (Lexer.start (Json.render j)) :=
    ⟨by rw [List.append_nil]; rfl, rfl, rfl, rfl, rfl, by simp [Lexer.start, Lexer.Free]⟩
  have finishes : Lexer.Yields (Lexer.Stands [] 0 ([] ++ flowTokens j)) (some (flowTokens j)) := by
    intro l fuel stands enough
    obtain ⟨fuel, rfl⟩ := Nat.exists_eq_add_one.mpr (Nat.zero_lt_of_lt enough)
    exact stands.run_end fuel
  exact Lexer.yields_render j [] 0 [] short (by omega) (by simp [Ends]) finishes _ _ begins
    (by rw [begins.rest]; simp)

theorem documents?_render (j : Json) (short : Lexer.Short (Lexer.keysOf j)) (shallow : j.depth ≤ Lexer.deepestFlow) :
    documents? (Json.render j) = some [ofJson j] := by
  rw [documents?, tokens?_render j short shallow]
  exact documentsFrom_flowTokens j _

end FieldGateway.Yaml
