import FieldGateway.Json.Basic

-- The marks, words, texts and numbers of a JSON document, read one character at a time.
namespace FieldGateway.Json

inductive Token where
  | openArray
  | closeArray
  | openObject
  | closeObject
  | comma
  | colon
  | null
  | bool (value : Bool)
  | number (value : Numeral)
  | text (value : Text)
deriving DecidableEq

def Numeral.read? (t : Text) : Option Numeral :=
  let (negative, t) := match t with
    | '-' :: rest => (true, rest)
    | _ => (false, t)
  let (whole, t) := Digit.run t
  let wholeFits : Bool := match whole with
    | [] => false
    | [_] => true
    | first :: _ => first != Digit.zero
  let (fraction, t, pointFits) : List Digit × Text × Bool := match t with
    | '.' :: rest => let (digits, left) := Digit.run rest; (digits, left, !digits.isEmpty)
    | _ => ([], t, true)
  let (exponent, t, markFits) : Option Exponent × Text × Bool := match t with
    | mark :: rest =>
      if mark = 'e' || mark = 'E' then
        let (negative, rest) := match rest with
          | '-' :: rest => (true, rest)
          | '+' :: rest => (false, rest)
          | _ => (false, rest)
        match Digit.run rest with
        | (first :: digits, left) => (some ⟨negative, first, digits⟩, left, true)
        | ([], left) => (none, left, false)
      else (none, t, true)
    | [] => (none, [], true)
  if wholeFits && pointFits && markFits && t.isEmpty then
    some ⟨negative, Digit.value whole, fraction, exponent⟩
  else none

inductive Lexeme where
  | between
  | word (read : Text)
  | number (read : Text)
  | text (read : Text)
  | escape (read : Text)
  -- The four digits of `\u`, with the value so far and what a leading surrogate left behind.
  | code (read : Text) (leading : Option Nat) (count value : Nat)
  | partner (read : Text) (leading : Nat)
  | partnerMark (read : Text) (leading : Nat)
deriving DecidableEq

def isNumberChar (c : Char) : Bool :=
  c.isDigit || c = '-' || c = '+' || c = '.' || c = 'e' || c = 'E'

def word? (t : Text) : Option Token :=
  if t = "null" then some .null
  else if t = "true" then some (.bool true)
  else if t = "false" then some (.bool false)
  else none

def Lexeme.close? : Lexeme → Option (List Token)
  | .between => some []
  | .word read => (word? read.reverse).map ([·])
  | .number read => (Numeral.read? read.reverse).map fun n => [.number n]
  | _ => none

def startLexeme (c : Char) : Option (List Token × Lexeme) :=
  if c = ' ' || c = '\n' || c = '\t' || c = '\r' then some ([], .between)
  else if c = '[' then some ([.openArray], .between)
  else if c = ']' then some ([.closeArray], .between)
  else if c = '{' then some ([.openObject], .between)
  else if c = '}' then some ([.closeObject], .between)
  else if c = ',' then some ([.comma], .between)
  else if c = ':' then some ([.colon], .between)
  else if c = '"' then some ([], .text [])
  else if c.isDigit || c = '-' then some ([], .number [c])
  else if c.isAlpha then some ([], .word [c])
  else none

def escaped? (c : Char) : Option Char :=
  if c = '"' then some '"'
  else if c = '\\' then some '\\'
  else if c = '/' then some '/'
  else if c = 'b' then some (Char.ofNat 8)
  else if c = 'f' then some (Char.ofNat 12)
  else if c = 'n' then some '\n'
  else if c = 'r' then some '\r'
  else if c = 't' then some '\t'
  else none

-- What four hexadecimal digits mean. Surrogates only count in pairs.
def Lexeme.ofCode? (read : Text) (leading : Option Nat) (value : Nat) : Option Lexeme :=
  match leading with
  | some high =>
    if 0xDC00 ≤ value ∧ value ≤ 0xDFFF then
      some (.text (Char.ofNat (0x10000 + (high - 0xD800) * 0x400 + (value - 0xDC00)) :: read))
    else none
  | none =>
    if 0xD800 ≤ value ∧ value ≤ 0xDBFF then some (.partner read value)
    else if 0xDC00 ≤ value ∧ value ≤ 0xDFFF then none
    else some (.text (Char.ofNat value :: read))

def Lexeme.step (c : Char) : Lexeme → Option (List Token × Lexeme)
  | .between => startLexeme c
  | .word read =>
    if c.isAlpha then some ([], .word (c :: read))
    else do
      let closed ← Lexeme.close? (.word read)
      let (opened, next) ← startLexeme c
      some (closed ++ opened, next)
  | .number read =>
    if isNumberChar c then some ([], .number (c :: read))
    else do
      let closed ← Lexeme.close? (.number read)
      let (opened, next) ← startLexeme c
      some (closed ++ opened, next)
  | .text read =>
    if c = '"' then some ([.text read.reverse], .between)
    else if c = '\\' then some ([], .escape read)
    else if c.toNat < 32 then none
    else some ([], .text (c :: read))
  | .escape read =>
    if c = 'u' then some ([], .code read none 0 0)
    else (escaped? c).map fun d => ([], .text (d :: read))
  | .code read leading count value =>
    match Text.hexDigit? c with
    | none => none
    | some digit =>
      let value := value * 16 + digit
      if count = 3 then (Lexeme.ofCode? read leading value).map fun next => ([], next)
      else some ([], .code read leading (count + 1) value)
  | .partner read leading => if c = '\\' then some ([], .partnerMark read leading) else none
  | .partnerMark read leading => if c = 'u' then some ([], .code read (some leading) 0 0) else none

def tokensFrom? (lexeme : Lexeme) : Text → Option (List Token)
  | [] => lexeme.close?
  | c :: rest =>
    match lexeme.step c with
    | none => none
    | some (tokens, next) => (tokensFrom? next rest).map (tokens ++ ·)

def tokens? (t : Text) : Option (List Token) := tokensFrom? .between t

end FieldGateway.Json
