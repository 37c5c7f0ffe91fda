import FieldGateway.Toml.Basic
import FieldGateway.Toml.Moment
import FieldGateway.Toml.Token

-- Numbers and moments, whose points, colons and plus signs are tokens of their own.
namespace FieldGateway.Toml

-- Digits with single underscores between them, and what is left of the word. Only a base of
-- its own allows zeros in front, and only base ten a sign.
structure DigitRule where
  base : Nat
  signed : Bool
  leadingZeros : Bool

inductive Last where
  | nothing
  | digit
  | underscore
deriving DecidableEq

def DigitRule.run (rule : DigitRule) (last : Last) (zeroFirst : Bool) : Text → Option (Text × Text)
  | [] => if last = .digit then some ([], []) else none
  | c :: rest =>
    if c = '_' then
      if last = .digit then rule.run .underscore zeroFirst rest else none
    else if (Text.digit? rule.base c).isSome then
      if zeroFirst && !rule.leadingZeros then none
      else
        let zeroFirst : Bool := zeroFirst || (last = .nothing && c = '0')
        (rule.run .digit zeroFirst rest).map fun (digits, left) => (c :: digits, left)
    else if last = .digit then some ([], c :: rest) else none

def DigitRule.split (rule : DigitRule) (t : Text) : Option (Text × Text) :=
  match t with
  | c :: rest =>
    if rule.signed && (c = '+' || c = '-') then
      (rule.run .nothing false rest).map fun (digits, left) => (c :: digits, left)
    else rule.run .nothing false t
  | [] => none

def decimalRule : DigitRule := ⟨10, true, false⟩
def fractionRule : DigitRule := ⟨10, false, true⟩
def exponentRule : DigitRule := ⟨10, true, true⟩

def integer? (rule : DigitRule) (t : Text) : Option Toml :=
  match rule.split t with
  | some (digits, []) => (Text.signed? rule.base i64Least i64Greatest digits).map .integer
  | _ => none

def real? (t : Text) : Option Toml :=
  match Binary.read? .double t with
  | some (.finite x) => some (.real (.finite x))
  | _ => none

-- The power of ten at the end of a word. A plus sign splits it off as a token of its own.
def exponent? (mark : Text) (tokens : List Token) : Option (Text × List Token) :=
  match mark with
  | [] => some ([], tokens)
  | c :: digits =>
    if c = 'e' || c = 'E' then
      match digits, tokens with
      | [], .plus :: .word w :: rest => finish fractionRule w rest
      | [], .word w :: rest => finish fractionRule w rest
      | [], _ => none
      | _ :: _, _ => finish exponentRule digits tokens
    else none
where
  finish (rule : DigitRule) (w : Text) (rest : List Token) : Option (Text × List Token) :=
    match rule.split w with
    | some (digits, []) => some ('e' :: digits, rest)
    | _ => none

def fraction? (whole : Text) (tokens : List Token) : Option (Toml × List Token) :=
  match decimalRule.split whole, tokens with
  | some (digits, []), .word w :: rest =>
    match fractionRule.split w with
    | none => none
    | some (after, mark) => match exponent? mark rest with
      | none => none
      | some (power, rest) => (real? (digits ++ '.' :: after ++ power)).map fun x => (x, rest)
  | _, _ => none

def scaled? (whole : Text) (tokens : List Token) : Option (Toml × List Token) :=
  match decimalRule.split whole with
  | none => none
  | some (digits, mark) => match exponent? mark tokens with
    | none => none
    | some (power, rest) => (real? (digits ++ power)).map fun x => (x, rest)

def special? (t : Text) : Option Toml :=
  if t = "inf" then some (.real (.infinite false))
  else if t = "-inf" then some (.real (.infinite true))
  else if t = "nan" ∨ t = "-nan" then some (.real .nan)
  else none

def number? (w : Text) (tokens : List Token) : Option (Toml × List Token) :=
  let alone (value : Option Toml) : Option (Toml × List Token) := value.map fun v => (v, tokens)
  match w with
  | '0' :: 'x' :: digits => alone (integer? ⟨16, false, true⟩ digits)
  | '0' :: 'o' :: digits => alone (integer? ⟨8, false, true⟩ digits)
  | '0' :: 'b' :: digits => alone (integer? ⟨2, false, true⟩ digits)
  | _ =>
    if w.any fun c => c = 'e' || c = 'E' then scaled? w tokens
    else match tokens with
      | .period :: rest => fraction? w rest
      | _ => alone ((special? w).orElse fun _ => integer? decimalRule w)

def clockTokens (tokens : List Token) : Option (Text × List Token) :=
  match tokens with
  | .colon :: .word minutes :: .colon :: .word seconds :: rest =>
    let (fraction, rest) : Text × List Token := match rest with
      | .period :: .word digits :: rest => ('.' :: digits, rest)
      | _ => ([], rest)
    let (offset, rest) : Text × List Token := match rest with
      | .plus :: .word hours :: rest => ('+' :: hours, rest)
      | _ => ([], rest)
    let (shift, rest) : Text × List Token := match rest with
      | .colon :: .word minutes :: rest => (':' :: minutes, rest)
      | _ => ([], rest)
    some (':' :: minutes ++ ':' :: seconds ++ fraction ++ offset ++ shift, rest)
  | .colon :: _ => none
  | _ => some ([], tokens)

def moment? (w : Text) (tokens : List Token) : Option (Toml × List Token) :=
  let (hour, tokens) : Text × List Token := match tokens with
    | .blank :: .word hour :: rest => (' ' :: hour, rest)
    | _ => ([], tokens)
  match clockTokens tokens with
  | none => none
  | some (clock, rest) => (Moment.read? (w ++ hour ++ clock)).map fun m => (.moment m.text, rest)

-- A dash inside a word makes it a date, unless it is the sign of an exponent.
def looksDated (w : Text) : Bool :=
  let signedExponent : Bool := (w.zip (w.drop 1)).any fun (a, b) => (a = 'e' || a = 'E') && b = '-'
  w.any (fun c => c = 'T' || c = 't') || ((w.drop 1).any (· = '-') && !signedExponent)

def startsNumber (w : Text) : Bool :=
  w = ("inf" : Text) || w = ("nan" : Text) || (w.headD ' ').isDigit || w.headD ' ' = '-'

def word? (w : Text) (tokens : List Token) : Option (Toml × List Token) :=
  if w = "true" then some (.bool true, tokens)
  else if w = "false" then some (.bool false, tokens)
  else if !startsNumber w then none
  else if looksDated w || tokens.head? = some .colon then moment? w tokens
  else number? w tokens

end FieldGateway.Toml
