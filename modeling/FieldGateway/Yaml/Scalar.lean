import FieldGateway.Text.Digits
import FieldGateway.Yaml.Cursor

-- Scalars: plain, in quotes, and as blocks of lines.
namespace FieldGateway.Yaml

-- What separates two runs of a scalar. Blanks count on one line only; of the line breaks the
-- first one is folded away when there is no other.
structure Gap where
  blanks : Text
  broken : Bool
  first : Bool
  more : Text

namespace Gap

def none : Gap := ⟨[], false, false, []⟩

def escaped : Gap := ⟨[], true, false, []⟩

def text (g : Gap) : Text :=
  if !g.broken then g.blanks
  else if g.first && g.more.isEmpty then [' '] else g.more

def lineBreak (g : Gap) : Gap :=
  if g.broken then { g with more := g.more ++ ['\n'] } else ⟨[], true, true, g.more⟩

def blank (g : Gap) (c : Char) : Gap := if g.broken then g else { g with blanks := g.blanks ++ [c] }

def scan (margin : Int) : (fuel : Nat) → Cursor → Gap → Option (Gap × Cursor)
  | 0, c, g => some (g, c)
  | fuel + 1, c, g =>
    if isSpace c.char then
      if g.broken && c.char = '\t' && (c.column : Int) < margin then Option.none
      else scan margin fuel c.skip (g.blank c.char)
    else if isBreak c.char then scan margin fuel c.skipBreak g.lineBreak
    else some (g, c)

end Gap

def plainRun (inFlow : Bool) : Text → Text
  | [] => []
  | c :: rest =>
    let next := rest.headD endMark
    if isGap c then []
    else if c = ':' && (isGap next || (inFlow && isFlowMark next)) then []
    else if inFlow && isFlowMark c then []
    else c :: plainRun inFlow rest

structure Scanned where
  text : Text
  cursor : Cursor
  broken : Bool

def plainFrom (inFlow : Bool) (margin : Int) : (fuel : Nat) → Cursor → Text → Gap → Option Scanned
  | 0, c, t, g => some ⟨t, c, g.broken⟩
  | fuel + 1, c, t, g =>
    if c.atDocumentMark || c.char = '#' then some ⟨t, c, g.broken⟩
    else
      let run := plainRun inFlow c.rest
      let t := if run.isEmpty then t else t ++ g.text ++ run
      let g := if run.isEmpty then g else Gap.none
      let c := c.advance run.length
      if !(isSpace c.char || isBreak c.char) then some ⟨t, c, g.broken⟩
      else match g.scan margin c.rest.length c with
        | none => none
        | some (g, c) =>
          if !inFlow && (c.column : Int) < margin then some ⟨t, c, g.broken⟩
          else plainFrom inFlow margin fuel c t g

def plain (inFlow : Bool) (margin : Int) (c : Cursor) : Option Scanned :=
  plainFrom inFlow margin (c.rest.length + 1) c [] Gap.none

def shortEscape? (c : Char) : Option Char :=
  [('0', 0), ('a', 7), ('b', 8), ('t', 9), ('\t', 9), ('n', 10), ('v', 11), ('f', 12), ('r', 13),
    ('e', 27), (' ', 32), ('"', 34), ('\'', 39), ('\\', 92), ('N', 0x85), ('_', 0xA0),
    ('L', 0x2028), ('P', 0x2029)].lookup c |>.map Char.ofNat

def longEscape? (c : Char) : Option Nat := [('x', 2), ('u', 4), ('U', 8)].lookup c

def codeOf? (digits : Text) : Option Char :=
  match digits.mapM Text.hexDigit? with
  | some values =>
    let n := values.foldl (fun n d => n * 16 + d) 0
    if n.isValidChar then some (Char.ofNat n) else none
  | none => none

inductive RunEnd where
  | quote
  | escapedBreak
  | gap

def quotedRun (single : Bool) : (fuel : Nat) → Cursor → Text → Option (Text × Cursor × RunEnd)
  | 0, c, t => some (t, c, .gap)
  | fuel + 1, c, t =>
    let next := c.peek 1
    if isGap c.char then some (t, c, .gap)
    else if single then
      if c.char = '\'' then
        if next = '\'' then quotedRun single fuel (c.advance 2) (t ++ ['\'']) else some (t, c, .quote)
      else quotedRun single fuel c.skip (t ++ [c.char])
    else if c.char = '"' then some (t, c, .quote)
    else if c.char = '\\' then
      if isBreak next then some (t, c.skip.skipBreak, .escapedBreak)
      else match shortEscape? next, longEscape? next with
        | some d, _ => quotedRun single fuel (c.advance 2) (t ++ [d])
        | none, some width =>
          let digits := (c.rest.drop 2).take width
          if digits.length < width then none
          else match codeOf? digits with
            | some d => quotedRun single fuel (c.advance (2 + width)) (t ++ [d])
            | none => none
        | none, none => none
    else quotedRun single fuel c.skip (t ++ [c.char])

def isQuote (single : Bool) (c : Char) : Bool := if single then c = '\'' else c = '"'

def quotedFrom (single : Bool) : (fuel : Nat) → Cursor → Text → Option Scanned
  | 0, _, _ => none
  | fuel + 1, c, t =>
    if c.atDocumentMark || isEnd c.char then none
    else match quotedRun single (c.rest.length + 1) c t with
      | none => none
      | some (t, c, stop) =>
        if isQuote single c.char then some ⟨t, c.skip, false⟩
        else
          let g := match stop with
            | .escapedBreak => Gap.escaped
            | _ => Gap.none
          match g.scan (-1) c.rest.length c with
          | none => none
          | some (g, c) => quotedFrom single fuel c (t ++ g.text)

def quotedScalar (single : Bool) (c : Cursor) : Option Scanned :=
  quotedFrom single (c.rest.length + 1) c.skip []

inductive Chomping where
  | strip
  | clip
  | keep
deriving DecidableEq

structure BlockHeader where
  chomping : Chomping
  increment : Nat
  cursor : Cursor

def chomping? (c : Char) : Option Chomping :=
  if c = '+' then some .keep else if c = '-' then some .strip else none

def blockHeader (c : Cursor) : Option BlockHeader :=
  match chomping? c.char with
  | some chomping =>
    let c := c.skip
    if c.char.isDigit then
      if c.char = '0' then none else some ⟨chomping, c.char.toNat - 48, c.skip⟩
    else some ⟨chomping, 0, c⟩
  | none =>
    if c.char.isDigit then
      if c.char = '0' then none
      else
        let increment := c.char.toNat - 48
        let c := c.skip
        match chomping? c.char with
        | some chomping => some ⟨chomping, increment, c.skip⟩
        | none => some ⟨.clip, increment, c⟩
    else some ⟨.clip, 0, c⟩

def blockBreaks (indent : Nat) : (fuel : Nat) → Cursor → (widest : Nat) → Text → Option (Cursor × Nat × Text)
  | 0, c, widest, breaks => some (c, widest, breaks)
  | fuel + 1, c, widest, breaks =>
    let spaces := (c.rest.takeWhile (· = ' ')).length
    let c := c.advance (if indent = 0 then spaces else min spaces (indent - c.column))
    let widest := max widest c.column
    if (indent = 0 || c.column < indent) && c.char = '\t' then none
    else if isBreak c.char then blockBreaks indent fuel c.skipBreak widest (breaks ++ ['\n'])
    else some (c, widest, breaks)

-- The lines of a block. In a folded one, a break between two lines that do not begin with a
-- blank becomes a space.
structure BlockText where
  text : Text
  lastBreak : Text
  breaks : Text
  ledByBlank : Bool

def blockLines (literal : Bool) (indent : Nat) : (fuel : Nat) → Cursor → BlockText → Option (BlockText × Cursor)
  | 0, c, b => some (b, c)
  | fuel + 1, c, b =>
    if c.column != indent || isEnd c.char then some (b, c)
    else
      let blank := isSpace c.char
      let joint : Text :=
        if !literal && !b.lastBreak.isEmpty && !b.ledByBlank && !blank then
          if b.breaks.isEmpty then [' '] else []
        else b.lastBreak
      let (line, c) := c.takeWhile fun d => !isBreakOrEnd d
      let text := b.text ++ joint ++ b.breaks ++ line
      if isEnd c.char then some (⟨text, [], [], blank⟩, c)
      else match blockBreaks indent (c.rest.length + 1) c.skipBreak 0 [] with
        | none => none
        | some (c, _, breaks) => blockLines literal indent fuel c ⟨text, ['\n'], breaks, blank⟩

-- The cursor stands on the mark of the block. `parent` is the column of the construct around it.
def blockScalar (literal : Bool) (parent : Int) (c : Cursor) : Option Scanned :=
  match blockHeader c.skip with
  | none => none
  | some header =>
    let c := header.cursor.skipTail
    if !isBreakOrEnd c.char then none
    else
      let c := c.skipBreak
      let given : Nat :=
        if header.increment = 0 then 0
        else if 0 ≤ parent then (parent + header.increment).toNat else header.increment
      match blockBreaks given (c.rest.length + 1) c 0 [] with
      | none => none
      | some (c, widest, breaks) =>
        let indent := if given = 0 then max (max widest (parent + 1).toNat) 1 else given
        match blockLines literal indent (c.rest.length + 1) c ⟨[], [], breaks, false⟩ with
        | none => none
        | some (b, c) =>
          let text := match header.chomping with
            | .strip => b.text
            | .clip => b.text ++ b.lastBreak
            | .keep => b.text ++ b.lastBreak ++ b.breaks
          some ⟨text, c, false⟩

end FieldGateway.Yaml
