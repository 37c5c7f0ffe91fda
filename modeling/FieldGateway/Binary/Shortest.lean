import FieldGateway.Binary.Format
import FieldGateway.Text.Digits

-- The shortest decimal that reads back as a given number. The numbers that round to it form
-- an interval; grids of decimals are tried from coarse to fine, and on the first grid with a
-- point in the interval the point nearest to the number is taken.
namespace FieldGateway

-- One digit in front of the point, times a power of ten: the digits carry no trailing zero,
-- and `position` is the power of ten of the leading one. Zero has no digits.
structure Scientific where
  digits : List Digit
  position : Int
deriving DecidableEq

namespace Scientific

def ofGrid (point : Nat) (grid : Int) : Scientific :=
  let digits := Digit.ofNat point
  ⟨(digits.reverse.dropWhile (· == Digit.zero)).reverse, grid + digits.length - 1⟩

end Scientific

def leadingPosition (n d : Nat) : Int :=
  if d ≤ n then ((Digit.ofNat (n / d)).length : Int) - 1
  else if (d - 1) / n = 0 then 0
  else -((Digit.ofNat ((d - 1) / n)).length : Int)

namespace Finite

-- The interval of fractions that round to a number: its ends and whether they belong to it.
-- Ends and number are counted in quarters of the last bit's unit. Below a power of two
-- the neighbour is only half a unit away.
structure Interval where
  low : Nat
  middle : Nat
  high : Nat
  unit : Nat
  divisor : Nat
  closed : Bool

def interval (x : Finite f) : Interval :=
  let narrow : Bool := x.mantissa == Nat.pow 2 (f.precision - 1) && x.exponent != f.least
  let quarter := x.exponent - 2
  { low := 4 * x.mantissa - (if narrow then 1 else 2)
    middle := 4 * x.mantissa
    high := 4 * x.mantissa + 2
    unit := Nat.pow 2 quarter.toNat
    divisor := Nat.pow 2 (-quarter).toNat
    closed := x.mantissa % 2 == 0 }

def Interval.holds (i : Interval) (point : Nat) (grid : Int) : Bool :=
  let value := point * Nat.pow 10 grid.toNat * i.divisor
  let scale := i.unit * Nat.pow 10 (-grid).toNat
  if i.closed then i.low * scale ≤ value && value ≤ i.high * scale
  else i.low * scale < value && value < i.high * scale

-- The grid point for the number on one grid, when one of its two neighbours there reads back.
def Interval.onGrid? (i : Interval) (grid : Int) : Option Nat :=
  let n := i.middle * i.unit * Nat.pow 10 (-grid).toNat
  let d := i.divisor * Nat.pow 10 grid.toNat
  let below := n / d
  let above := below + 1
  match i.holds below grid, i.holds above grid with
  | false, false => none
  | true, false => some below
  | false, true => some above
  | true, true =>
    let rest := 2 * (n % d)
    if rest < d then some below
    else if d < rest then some above
    else if below % 2 = 0 then some below else some above

-- Grids from one digit upwards. Seventeen digits always suffice for both formats.
def Interval.search (i : Interval) (grid : Int) : Nat → Scientific
  | 0 => Scientific.ofGrid (i.middle * i.unit * Nat.pow 10 (-grid).toNat / (i.divisor * Nat.pow 10 grid.toNat)) grid
  | grids + 1 =>
    match i.onGrid? grid with
    | some point => Scientific.ofGrid point grid
    | none => i.search (grid - 1) grids

def shortest (x : Finite f) : Scientific :=
  if x.mantissa = 0 then ⟨[], 0⟩
  else x.interval.search (leadingPosition x.numerator x.denominator) 17

end Finite
end FieldGateway
