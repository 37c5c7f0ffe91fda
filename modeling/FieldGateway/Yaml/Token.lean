import FieldGateway.Text.Bytes
import FieldGateway.Yaml.Scalar

-- From text to tokens. Whether a node was a mapping key is only known when its colon comes, so
-- the places where a key may have begun are remembered, and marks are put there afterwards.
namespace FieldGateway.Yaml

inductive Token where
  | directive
  | documentStart
  | documentEnd
  | blockSequence
  | blockMapping
  | blockEnd
  | flowSequence
  | flowSequenceEnd
  | flowMapping
  | flowMappingEnd
  | blockEntry
  | flowEntry
  | key
  | value
  | alias (name : Text)
  | anchor (name : Text)
  | tag (standard : Bool) (suffix : Text)
  | scalar (isPlain : Bool) (text : Text)
deriving DecidableEq

structure KeyPlace where
  -- It stands at the column of a block, so a colon has to follow.
  required : Bool
  position : Nat
  index : Nat
  line : Nat
  column : Nat

structure Lexer where
  cursor : Cursor
  tokens : Array Token
  keyAllowed : Bool
  -- One place for every open flow collection and one for the block around them.
  keys : List (Option KeyPlace)
  indent : Int
  indents : List Int
  flow : Nat
  -- Behind a quoted scalar in a flow collection the colon needs no blank.
  adjacent : Nat

namespace Lexer

def start (t : Text) : Lexer := ⟨.start t, #[], true, [none], -1, [], 0, 0⟩

def deepestFlow : Nat := 255

def longestKey : Nat := 1024

def push (l : Lexer) (t : Token) : Lexer := { l with tokens := l.tokens.push t }

def insertAt (l : Lexer) (position : Nat) (t : Token) : Lexer :=
  { l with tokens := (l.tokens.extract 0 position).push t ++ l.tokens.extract position l.tokens.size }

def skip (l : Lexer) (n : Nat) : Lexer := { l with cursor := l.cursor.advance n }

def allowKey (l : Lexer) (allowed : Bool) : Lexer := { l with keyAllowed := allowed }

def dropKey (l : Lexer) : Option Lexer :=
  match l.keys with
  | some place :: keys => if place.required then none else some { l with keys := none :: keys }
  | _ => some l

def saveKey (l : Lexer) : Option Lexer :=
  if l.keyAllowed then
    let c := l.cursor
    let place : KeyPlace := ⟨0 < l.flow && l.indent == c.column, l.tokens.size, c.index, c.line, c.column⟩
    (dropKey l).map fun l => { l with keys := some place :: l.keys.drop 1 }
  else some l

def isStale (c : Cursor) (place : KeyPlace) : Bool :=
  place.line < c.line || place.index + longestKey < c.index

def dropStale (l : Lexer) : Option Lexer :=
  if l.keys.any fun place => place.any fun p => isStale l.cursor p && p.required then none
  else some { l with keys := l.keys.map fun place => place.filter fun p => !isStale l.cursor p }

-- A deeper column opens a block. Its mark goes where the key began, or to the end.
def openBlock (l : Lexer) (column : Nat) (position : Option Nat) (t : Token) : Lexer :=
  if l.flow = 0 ∧ l.indent < column then
    let l := match position with
      | some p => l.insertAt p t
      | none => l.push t
    { l with indents := l.indent :: l.indents, indent := column }
  else l

def closeBlocks (l : Lexer) (column : Int) : Lexer :=
  if l.flow = 0 then close l.indents l else l
where
  close : List Int → Lexer → Lexer
    | [], l => l
    | outer :: indents, l =>
      if column < l.indent then
        close indents { l with tokens := l.tokens.push .blockEnd, indent := outer, indents := indents }
      else l

def blankSkipped (l : Lexer) (c : Char) : Bool :=
  c = ' ' || (c = '\t' && (0 < l.flow || !l.keyAllowed))

def skipGaps : (fuel : Nat) → Lexer → Lexer
  | 0, l => l
  | fuel + 1, l =>
    let c := l.cursor.char
    if l.blankSkipped c then skipGaps fuel (l.skip 1)
    else if isBreak c then
      skipGaps fuel { l with cursor := l.cursor.skipBreak, keyAllowed := l.keyAllowed || l.flow = 0 }
    else if c = '#' then skipGaps fuel { l with cursor := l.cursor.skipToBreak }
    else l

def isTagChar (c : Char) : Bool := isWordChar c || c ∈ ";/?:@&=+$,.!~*'()[]%".toList

-- An escaped character of a tag: its bytes are put together without further decoding.
def escapedTagChar : (width : Option Nat) → (code : Nat) → Text → Option (Char × Text)
  | width, code, '%' :: a :: b :: rest =>
    match Text.hexDigit? a, Text.hexDigit? b with
    | some high, some low =>
      let octet := high * 16 + low
      let started : Option (Nat × Nat) := match width with
        | some w => if octet / 64 = 2 then some (w, code * 256 + octet) else none
        | none =>
          if octet < 128 then some (1, octet)
          else if octet / 32 = 6 then some (2, octet)
          else if octet / 16 = 14 then some (3, octet)
          else if octet / 8 = 30 then some (4, octet)
          else none
      match started with
      | none => none
      | some (w, code) =>
        if w ≤ 1 then if code.isValidChar then some (Char.ofNat code, rest) else none
        else escapedTagChar (some (w - 1)) code rest
    | _, _ => none
  | _, _, _ => none

def tagText : (fuel : Nat) → Cursor → Text → Option (Text × Cursor)
  | 0, c, t => some (t, c)
  | fuel + 1, c, t =>
    if c.char = '%' then
      match escapedTagChar none 0 c.rest with
      | some (d, rest) => tagText fuel (c.advance (c.rest.length - rest.length)) (t ++ [d])
      | none => none
    else if isTagChar c.char then tagText fuel c.skip (t ++ [c.char])
    else some (t, c)

def tagSuffix (c : Cursor) (head : Text) : Option (Text × Cursor) :=
  match tagText (c.rest.length + 1) c (head.drop 1) with
  | some (t, c) => if head.isEmpty && t.isEmpty then none else some (t, c)
  | none => none

def tagHandle (c : Cursor) : Text × Cursor :=
  let (word, c) := c.skip.takeWhile isWordChar
  if c.char = '!' then (['!'] ++ word ++ ['!'], c.skip) else ('!' :: word, c)

def scanTag (c : Cursor) : Option (Token × Cursor) :=
  let scanned : Option (Token × Cursor) :=
    if c.peek 1 = '<' then
      match tagSuffix (c.advance 2) [] with
      | some (t, c) => if c.char = '>' then some (.tag false t, c.skip) else none
      | none => none
    else
      let (handle, c) := tagHandle c
      if 2 ≤ handle.length && handle.getLast? = some '!' then
        (tagSuffix c []).map fun (t, c) => (.tag (handle = ['!', '!']) t, c)
      else (tagSuffix c handle).map fun (t, c) => (.tag false t, c)
  match scanned with
  | some (token, c) => if isGap c.char then some (token, c) else none
  | none => none

def versionNumber (c : Cursor) : Option Cursor :=
  let (digits, c) := c.takeWhile Char.isDigit
  if digits.isEmpty || 9 < digits.length then none else some c

def versionDirective (c : Cursor) : Option Cursor := do
  let c ← versionNumber (c.skipWhile isSpace)
  if c.char = '.' then versionNumber c.skip else none

def tagDirective (c : Cursor) : Option Cursor :=
  let c := c.skipWhile isSpace
  if c.char = '!' then
    let (handle, c) := tagHandle c
    if handle.getLast? = some '!' then
      match tagSuffix (c.skipWhile isSpace) [] with
      | some (_, c) => if isGap c.char then some c else none
      | none => none
    else none
  else none

def scanDirective (c : Cursor) : Option Cursor :=
  let (name, c) := c.skip.takeWhile isWordChar
  if name.isEmpty || !isGap c.char then none
  else
    let value :=
      if name = "YAML" then versionDirective c
      else if name = "TAG" then tagDirective c
      else some c.skipToBreak
    match value with
    | none => none
    | some c =>
      let c := c.skipTail
      if isBreakOrEnd c.char then some c.skipBreak else none

def endsAnchor (c : Char) : Bool :=
  isGap c || c = '?' || c = ':' || c = ',' || c = ']' || c = '}' || c = '%' || c = '@' || c.toNat = 96

def directive (l : Lexer) : Option Lexer := do
  let l ← dropKey (l.closeBlocks (-1))
  let c ← scanDirective l.cursor
  some (({ l with cursor := c }.allowKey false).push .directive)

def documentMark (l : Lexer) (t : Token) : Option Lexer := do
  let l ← dropKey (l.closeBlocks (-1))
  some (((l.allowKey false).skip 3).push t)

def openFlow (l : Lexer) (t : Token) : Option Lexer := do
  let l ← saveKey l
  if deepestFlow ≤ l.flow then none
  else some (({ l with keys := none :: l.keys, flow := l.flow + 1, keyAllowed := true }.skip 1).push t)

def closeFlow (l : Lexer) (t : Token) : Option Lexer := do
  let l ← dropKey l
  let l := if 0 < l.flow then { l with flow := l.flow - 1, keys := l.keys.drop 1 } else l
  some (((l.allowKey false).skip 1).push t)

def flowEntry (l : Lexer) : Option Lexer := do
  let l ← dropKey l
  some (((l.allowKey true).skip 1).push .flowEntry)

def blockEntry (l : Lexer) : Option Lexer := do
  if l.flow = 0 && l.keyAllowed then
    let l ← dropKey (l.openBlock l.cursor.column none .blockSequence)
    some (((l.allowKey true).skip 1).push .blockEntry)
  else none

def explicitKey (l : Lexer) : Option Lexer := do
  if l.flow = 0 && !l.keyAllowed then none
  else
    let l ← dropKey (l.openBlock l.cursor.column none .blockMapping)
    some (((l.allowKey (l.flow = 0)).skip 1).push .key)

def colon (l : Lexer) : Option Lexer :=
  match l.keys with
  | some place :: keys =>
    let l := (l.insertAt place.position .key).openBlock place.column (some place.position) .blockMapping
    some ((({ l with keys := none :: keys }.allowKey false).skip 1).push .value)
  | _ =>
    if l.flow = 0 && !l.keyAllowed then none
    else
      let l := l.openBlock l.cursor.column none .blockMapping
      some (((l.allowKey (l.flow = 0)).skip 1).push .value)

def anchorOrAlias (l : Lexer) (token : Text → Token) : Option Lexer := do
  let l ← saveKey l
  let (name, c) := l.cursor.skip.takeWhile isWordChar
  if name.isEmpty || !endsAnchor c.char then none
  else some (({ l with cursor := c }.allowKey false).push (token name))

def tagged (l : Lexer) : Option Lexer := do
  let l ← saveKey l
  let (token, c) ← scanTag l.cursor
  some (({ l with cursor := c }.allowKey false).push token)

def block (l : Lexer) (literal : Bool) : Option Lexer := do
  let l ← saveKey l
  let s ← blockScalar literal l.indent l.cursor
  some (({ l with cursor := s.cursor }.allowKey true).push (.scalar false s.text))

def quotedToken (l : Lexer) (single : Bool) : Option Lexer := do
  let l ← saveKey l
  let s ← quotedScalar single l.cursor
  some (({ l with cursor := s.cursor, adjacent := s.cursor.index }.allowKey false).push (.scalar false s.text))

def plainToken (l : Lexer) : Option Lexer := do
  let l ← saveKey l
  let s ← plain (0 < l.flow) (l.indent + 1) l.cursor
  some (({ l with cursor := s.cursor }.allowKey s.broken).push (.scalar true s.text))

def next (l : Lexer) : Option Lexer :=
  let c := l.cursor.char
  let after := l.cursor.peek 1
  let inFlow : Bool := 0 < l.flow
  if l.cursor.column = 0 && c = '%' then l.directive
  else if l.cursor.atMark '-' then l.documentMark .documentStart
  else if l.cursor.atMark '.' then l.documentMark .documentEnd
  else if c = '[' then l.openFlow .flowSequence
  else if c = '{' then l.openFlow .flowMapping
  else if c = ']' then l.closeFlow .flowSequenceEnd
  else if c = '}' then l.closeFlow .flowMappingEnd
  else if c = ',' then l.flowEntry
  else if c = '-' && isGap after then l.blockEntry
  else if c = '?' && isGap after then l.explicitKey
  else if c = ':' && (isGap after || (inFlow && (isFlowMark after || l.cursor.index = l.adjacent))) then l.colon
  else if c = '*' then l.anchorOrAlias .alias
  else if c = '&' then l.anchorOrAlias .anchor
  else if c = '!' then l.tagged
  else if c = '|' && !inFlow then l.block true
  else if c = '>' && !inFlow then l.block false
  else if c = '\'' then l.quotedToken true
  else if c = '"' then l.quotedToken false
  else if c = '%' || c = '@' || c.toNat = 96 then none
  else l.plainToken

def finish (l : Lexer) : Option (List Token) := do
  let l ← dropKey (l.closeBlocks (-1))
  some l.tokens.toList

-- Every step goes on by at least one character.
def run : (fuel : Nat) → Lexer → Option (List Token)
  | 0, _ => none
  | fuel + 1, l =>
    match dropStale (skipGaps (l.cursor.rest.length + 1) l) with
    | none => none
    | some l =>
      let l := l.closeBlocks l.cursor.column
      if isEnd l.cursor.char then l.finish
      else match l.next with
        | none => none
        | some l => run fuel l

end Lexer

def tokens? (t : Text) : Option (List Token) := Lexer.run (t.length + 2) (Lexer.start t)

end FieldGateway.Yaml
