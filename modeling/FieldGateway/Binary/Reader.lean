import FieldGateway.Binary.Rounding
import FieldGateway.Text.Digits

-- Numbers in plain text: a decimal with optional sign, point and exponent, or the name of
-- an infinity or of NaN.
namespace FieldGateway

structure Decimal where
  negative : Bool
  coefficient : Nat
  scale : Int
deriving DecidableEq

def splitSign : Text → Bool × Text
  | '-' :: rest => (true, rest)
  | '+' :: rest => (false, rest)
  | t => (false, t)

namespace Decimal

def exponent? : Text → Option Int
  | [] => some 0
  | mark :: rest =>
    if mark = 'e' ∨ mark = 'E' then
      let (negative, rest) := splitSign rest
      match Digit.run rest with
      | (d :: digits, []) =>
        let magnitude : Int := Digit.value (d :: digits)
        some (if negative then -magnitude else magnitude)
      | _ => none
    else none

def read? (t : Text) : Option Decimal :=
  let (negative, t) := splitSign t
  let (whole, t) := Digit.run t
  let (fraction, t) := match t with
    | '.' :: rest => Digit.run rest
    | _ => ([], t)
  if whole.isEmpty && fraction.isEmpty then none
  else (exponent? t).map fun e => ⟨negative, Digit.value (whole ++ fraction), e - fraction.length⟩

end Decimal

namespace Binary

def named? (f : Format) (t : Text) : Option (Binary f) :=
  let (negative, name) := splitSign t
  let name := Text.lower name
  if name = "inf" ∨ name = "infinity" then some (.infinite negative)
  else if name = "nan" then some .nan
  else none

def read? (f : Format) (t : Text) : Option (Binary f) :=
  match Decimal.read? t with
  | some d => some (ofDecimal f d.negative d.coefficient d.scale)
  | none => named? f t

end Binary
end FieldGateway
