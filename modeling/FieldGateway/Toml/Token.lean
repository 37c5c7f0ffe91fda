import FieldGateway.Text.Bytes
import FieldGateway.Text.Digits

-- The words, texts and marks of a TOML document. Line breaks count, blanks stand where they
-- separate something.
namespace FieldGateway.Toml

inductive Token where
  | blank
  | newline
  | comment
  | equals
  | period
  | comma
  | colon
  | plus
  | openBrace
  | closeBrace
  | openBracket
  | closeBracket
  | word (read : Text)
  | text (read : Text) (spansLines : Bool)
deriving DecidableEq

structure Quoting where
  mark : Char
  escapes : Bool
  spansLines : Bool

inductive Inside where
  | plain
  | escaped
  | code (due value : Nat)
  -- Behind a backslash at the end of a line: blanks and line breaks do not count.
  | gap (broken : Bool)
deriving DecidableEq

def escape? (c : Char) : Option Char :=
  if c = '"' then some '"'
  else if c = '\\' then some '\\'
  else if c = 'b' then some (Char.ofNat 8)
  else if c = 'f' then some (Char.ofNat 12)
  else if c = 'n' then some '\n'
  else if c = 'r' then some '\r'
  else if c = 't' then some '\t'
  else none

def isBlank (c : Char) : Bool := c = ' ' || c = '\t'
def isControl (c : Char) : Bool := (c.toNat < 32 && c != '\t') || c.toNat = 127

def Quoting.afterBackslash (q : Quoting) (c : Char) : Option (Text × Inside) :=
  if c = 'u' then some ([], .code 4 0)
  else if c = 'U' then some ([], .code 8 0)
  else if q.spansLines && (isBlank c || c = '\n') then some ([], .gap (c = '\n'))
  else (escape? c).map fun d => ([d], .plain)

def Quoting.plainChar (q : Quoting) (c : Char) : Option (Text × Inside) :=
  if c = '\n' then if q.spansLines then some ([c], .plain) else none
  else if q.escapes && c = '\\' then some ([], .escaped)
  else if isControl c then none
  else some ([c], .plain)

def Quoting.step (q : Quoting) (c : Char) : Inside → Option (Text × Inside)
  | .plain => q.plainChar c
  | .escaped => q.afterBackslash c
  | .code due value => match Text.hexDigit? c with
    | none => none
    | some digit =>
      let value := value * 16 + digit
      if due ≤ 1 then (Text.codePoint? value).map fun d => ([d], .plain)
      else some ([], .code (due - 1) value)
  | .gap broken =>
    if c = '\n' then some ([], .gap true)
    else if isBlank c then some ([], .gap broken)
    else if broken then q.plainChar c
    else none

def Inside.mayEnd : Inside → Bool
  | .plain | .gap true => true
  | _ => false

-- Three marks close a text of several lines, and up to two more in front of them belong to it.
def Quoting.close? (q : Quoting) (inside : Inside) (t : Text) : Option (Text × Text) :=
  let marks := (t.takeWhile (· = q.mark)).length
  if !inside.mayEnd then none
  else if q.spansLines then
    if 3 ≤ marks then
      let own := min (marks - 3) 2
      some (List.replicate own q.mark, t.drop (own + 3))
    else none
  else if 1 ≤ marks then some ([], t.drop 1) else none

def Quoting.read (q : Quoting) (inside : Inside) : Text → Option (Text × Text)
  | [] => none
  | c :: rest =>
    match q.close? inside (c :: rest) with
    | some closed => some closed
    | none => match q.step c inside with
      | none => none
      | some (added, next) => (q.read next rest).map fun (t, left) => (added ++ t, left)

def textToken? (mark : Char) (t : Text) : Option (Token × Text) :=
  let escapes : Bool := mark = '"'
  match Text.after? [mark, mark] t with
  | some body =>
    let body := (Text.after? ['\n'] body).getD body
    ((Quoting.mk mark escapes true).read .plain body).map fun (read, left) => (.text read true, left)
  | none => ((Quoting.mk mark escapes false).read .plain t).map fun (read, left) => (.text read false, left)

def isWordChar (c : Char) : Bool := c.isAlphanum || c = '-' || c = '_'

def mark? (c : Char) : Option Token :=
  if c = '\n' then some .newline
  else if c = '=' then some .equals
  else if c = '.' then some .period
  else if c = ',' then some .comma
  else if c = ':' then some .colon
  else if c = '+' then some .plus
  else if c = '{' then some .openBrace
  else if c = '}' then some .closeBrace
  else if c = '[' then some .openBracket
  else if c = ']' then some .closeBracket
  else none

def next? (c : Char) (rest : Text) : Option (Token × Text) :=
  if isBlank c then some (.blank, rest.dropWhile isBlank)
  else if c = '#' then some (.comment, rest.dropWhile fun d => d = '\t' || 32 ≤ d.toNat)
  else if c = '"' || c = '\'' then textToken? c rest
  else if isWordChar c then some (.word (c :: rest.takeWhile isWordChar), rest.dropWhile isWordChar)
  else (mark? c).map fun token => (token, rest)

-- Every token takes a character at least.
def tokensWithin : (fuel : Nat) → Text → Option (List Token)
  | _, [] => some []
  | 0, _ :: _ => none
  | fuel + 1, c :: rest =>
    match next? c rest with
    | none => none
    | some (token, left) => (tokensWithin fuel left).map (token :: ·)

def foldBreaks : Text → Text
  | '\r' :: '\n' :: rest => '\n' :: foldBreaks rest
  | c :: rest => c :: foldBreaks rest
  | [] => []

def byteOrderMark : Char := Char.ofNat 0xFEFF

def tokens? (t : Text) : Option (List Token) :=
  let t := foldBreaks ((Text.after? [byteOrderMark] t).getD t)
  tokensWithin t.length t

end FieldGateway.Toml
