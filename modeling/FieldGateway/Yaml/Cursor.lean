import FieldGateway.Text.Basic

namespace FieldGateway.Yaml

-- A place in a text, counted from zero. A carriage return alone ends a line for readers of
-- scalars, but only a line feed moves to the next line.
structure Cursor where
  rest : Text
  index : Nat
  line : Nat
  column : Nat

def endMark : Char := Char.ofNat 0

def isEnd (c : Char) : Bool := c = endMark
def isBreak (c : Char) : Bool := c = '\n' || c = '\r'
def isBreakOrEnd (c : Char) : Bool := isBreak c || isEnd c
def isSpace (c : Char) : Bool := c = ' ' || c = '\t'
def isGap (c : Char) : Bool := isSpace c || isBreakOrEnd c
def isFlowMark (c : Char) : Bool := c = ',' || c = '[' || c = ']' || c = '{' || c = '}'
def isWordChar (c : Char) : Bool := c.isAlphanum || c = '_' || c = '-'

namespace Cursor

def start (t : Text) : Cursor := ⟨t, 0, 0, 0⟩

def peek (c : Cursor) (ahead : Nat) : Char := (c.rest[ahead]?).getD endMark

def char (c : Cursor) : Char := c.rest.headD endMark

def skip (c : Cursor) : Cursor :=
  if c.char = '\n' then ⟨c.rest.drop 1, c.index + 1, c.line + 1, 0⟩
  else ⟨c.rest.drop 1, c.index + 1, c.line, c.column + 1⟩

def advance (c : Cursor) : Nat → Cursor
  | 0 => c
  | n + 1 => c.skip.advance n

def skipBreak (c : Cursor) : Cursor :=
  if c.char = '\r' && c.peek 1 = '\n' then c.advance 2
  else if isBreak c.char then c.skip else c

def takeWhile (c : Cursor) (keeps : Char → Bool) : Text × Cursor :=
  let taken := c.rest.takeWhile keeps
  (taken, c.advance taken.length)

def skipWhile (c : Cursor) (drops : Char → Bool) : Cursor := (c.takeWhile drops).2

def skipToBreak (c : Cursor) : Cursor := c.skipWhile fun d => !isBreakOrEnd d

def skipTail (c : Cursor) : Cursor :=
  let c := c.skipWhile isSpace
  if c.char = '#' then c.skipToBreak else c

def atMark (mark : Char) (c : Cursor) : Bool :=
  c.column = 0 && c.char = mark && c.peek 1 = mark && c.peek 2 = mark && isGap (c.peek 3)

def atDocumentMark (c : Cursor) : Bool := c.atMark '-' || c.atMark '.'

end Cursor
end FieldGateway.Yaml
