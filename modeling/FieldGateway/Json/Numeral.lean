import FieldGateway.Binary.Rounding
import FieldGateway.Binary.Shortest

-- Numbers of JSON documents. A number keeps the way it was written, so `1.50` and `1.5` are
-- different numerals, and two numerals are equal exactly when their texts are.
namespace FieldGateway.Json

structure Exponent where
  negative : Bool
  first : Digit
  rest : List Digit
deriving DecidableEq

-- The parts of a written number. An empty fraction stands for no point at all.
structure Numeral where
  negative : Bool
  whole : Nat
  fraction : List Digit
  exponent : Option Exponent
deriving DecidableEq

def Exponent.text (e : Exponent) : Text :=
  (if e.negative then '-' else '+') :: Digit.texts (e.first :: e.rest)

def Exponent.value (e : Exponent) : Int :=
  let magnitude : Int := Digit.value (e.first :: e.rest)
  if e.negative then -magnitude else magnitude

namespace Numeral

def text (n : Numeral) : Text :=
  (if n.negative then ['-'] else []) ++ Text.ofNat n.whole ++
    (if n.fraction.isEmpty then [] else '.' :: Digit.texts n.fraction) ++
    (match n.exponent with | none => [] | some e => 'e' :: e.text)

def ofNat (n : Nat) : Numeral := ⟨false, n, [], none⟩
def ofInt (i : Int) : Numeral := ⟨i < 0, i.natAbs, [], none⟩

def toInt? (n : Numeral) : Option Int :=
  if n.fraction.isEmpty && n.exponent.isNone then
    some (if n.negative then -(n.whole : Int) else n.whole)
  else none

def toSigned? (least greatest : Int) (n : Numeral) : Option Int :=
  match n.toInt? with
  | some i => if least ≤ i ∧ i ≤ greatest then some i else none
  | none => none

def toUnsigned? (greatest : Nat) (n : Numeral) : Option Nat :=
  if n.negative || !n.fraction.isEmpty || n.exponent.isSome then none
  else if n.whole ≤ greatest then some n.whole else none

def coefficient (n : Numeral) : Nat := n.fraction.foldl (fun c d => c * 10 + d.val) n.whole
def scale (n : Numeral) : Int := (n.exponent.map Exponent.value).getD 0 - n.fraction.length

def toBinary (f : Format) (n : Numeral) : Binary f :=
  Binary.ofDecimal f n.negative n.coefficient n.scale

def toDouble? (n : Numeral) : Option (Finite .double) :=
  match n.toBinary .double with
  | .finite x => some x
  | _ => none

end Numeral

structure Layout where
  least : Int
  greatest : Int

def Layout.double : Layout := ⟨-5, 15⟩
def Layout.single : Layout := ⟨-6, 12⟩

namespace Numeral

def plain (negative : Bool) (s : Scientific) : Numeral :=
  if s.position < 0 then
    ⟨negative, 0, List.replicate (-s.position - 1).toNat Digit.zero ++ s.digits, none⟩
  else
    let count := s.position.toNat + 1
    let whole := s.digits.take count ++ List.replicate (count - s.digits.length) Digit.zero
    let fraction := s.digits.drop count
    ⟨negative, Digit.value whole, if fraction.isEmpty then [Digit.zero] else fraction, none⟩

def scientific (negative : Bool) (s : Scientific) : Numeral :=
  let power := Digit.ofNat s.position.natAbs
  ⟨negative, Digit.value (s.digits.take 1), s.digits.drop 1,
    some ⟨s.position < 0, power.headD Digit.zero, power.drop 1⟩⟩

def ofScientific (layout : Layout) (negative : Bool) (s : Scientific) : Numeral :=
  if s.digits.isEmpty then ⟨negative, 0, [Digit.zero], none⟩
  else if layout.least ≤ s.position ∧ s.position ≤ layout.greatest then plain negative s
  else scientific negative s

def ofDouble (x : Finite .double) : Numeral := ofScientific .double x.negative x.shortest
def ofSingle (x : Finite .single) : Numeral := ofScientific .single x.negative x.shortest

def spelledOut (x : Finite .double) : Numeral :=
  let s := x.shortest
  let n := if s.digits.isEmpty then ⟨x.negative, 0, [Digit.zero], none⟩ else plain x.negative s
  { n with fraction := if n.fraction = [Digit.zero] then [] else n.fraction }

end Numeral
end FieldGateway.Json
