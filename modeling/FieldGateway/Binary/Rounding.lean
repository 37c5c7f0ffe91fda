import FieldGateway.Binary.Format

namespace FieldGateway

def roundEven (n d : Nat) : Nat :=
  let q := n / d
  let r := n % d
  if 2 * r < d ∨ (2 * r = d ∧ q % 2 = 0) then q else q + 1

def shiftedRatio (n d : Nat) (exponent : Int) : Nat × Nat :=
  (n * Nat.pow 2 (-exponent).toNat, d * Nat.pow 2 exponent.toNat)

namespace Format

def position (f : Format) (n d : Nat) : Int :=
  let guess : Int := (n.log2 : Int) - d.log2 - f.precision + 1
  let (n', d') := shiftedRatio n d guess
  max f.least (if n' / d' < Nat.pow 2 (f.precision - 1) then guess - 1 else guess)

end Format

namespace Binary

def ofParts (f : Format) (negative : Bool) (mantissa : Nat) (exponent : Int) : Binary f :=
  if fits : f.Canonical mantissa exponent then .finite ⟨negative, mantissa, exponent, fits⟩
  else .infinite negative

-- The number of the format nearest to `n / d`, halves to the even mantissa.
def ofRatio (f : Format) (negative : Bool) (n d : Nat) : Binary f :=
  if n = 0 then ofParts f negative 0 f.least
  else
    let exponent := f.position n d
    let (n', d') := shiftedRatio n d exponent
    let mantissa := roundEven n' d'
    if mantissa = Nat.pow 2 f.precision then ofParts f negative (Nat.pow 2 (f.precision - 1)) (exponent + 1)
    else ofParts f negative mantissa exponent

def ofInt (f : Format) (i : Int) : Binary f := ofRatio f (i < 0) i.natAbs 1

def decimalCeiling : Int := 310
def decimalFloor : Int := -330

-- The number nearest to `coefficient * 10 ^ exponent`. The decimal position of the leading
-- digit is looked at first, so that a huge exponent is never raised to a power.
def ofDecimal (f : Format) (negative : Bool) (coefficient : Nat) (exponent : Int) : Binary f :=
  let leading : Int := exponent + coefficient.log2 / 3 + 1
  if coefficient = 0 then ofRatio f negative 0 1
  else if decimalCeiling < exponent + (coefficient.log2 / 4 : Nat) then .infinite negative
  else if leading < decimalFloor then ofRatio f negative 0 1
  else ofRatio f negative (coefficient * Nat.pow 10 exponent.toNat) (Nat.pow 10 (-exponent).toNat)

def convert (g : Format) : Binary f → Binary g
  | .finite x => ofRatio g x.negative x.numerator x.denominator
  | .infinite negative => .infinite negative
  | .nan => .nan

end Binary
end FieldGateway
