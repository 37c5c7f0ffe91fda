namespace FieldGateway

-- A binary floating-point format: the number of mantissa bits, and the smallest and the
-- largest exponent that the last of these bits can have.
structure Format where
  precision : Nat
  least : Int
  greatest : Int
deriving DecidableEq

namespace Format

def double : Format := ⟨53, -1074, 971⟩
def single : Format := ⟨24, -149, 104⟩

-- Mantissas are full, except at the smallest exponent. This leaves one pair for every value.
def Canonical (f : Format) (mantissa : Nat) (exponent : Int) : Prop :=
  mantissa < Nat.pow 2 f.precision ∧ f.least ≤ exponent ∧ exponent ≤ f.greatest ∧
    (Nat.pow 2 (f.precision - 1) ≤ mantissa ∨ exponent = f.least)

instance (f : Format) (mantissa : Nat) (exponent : Int) : Decidable (f.Canonical mantissa exponent) :=
  inferInstanceAs (Decidable (_ ∧ _ ∧ _ ∧ _))

end Format

structure Finite (f : Format) where
  negative : Bool
  mantissa : Nat
  exponent : Int
  canonical : f.Canonical mantissa exponent
deriving DecidableEq

inductive Binary (f : Format) where
  | finite (value : Finite f)
  | infinite (negative : Bool)
  | nan
deriving DecidableEq

namespace Finite

def numerator (x : Finite f) : Nat := x.mantissa * Nat.pow 2 x.exponent.toNat
def denominator (x : Finite f) : Nat := Nat.pow 2 (-x.exponent).toNat

def isZero (x : Finite f) : Bool := x.mantissa == 0

def truncated (x : Finite f) : Int :=
  if x.negative then -((x.numerator / x.denominator : Nat) : Int)
  else ((x.numerator / x.denominator : Nat) : Int)

def exceeds (x : Finite f) (g : Format) : Bool :=
  (Nat.pow 2 g.precision - 1) * Nat.pow 2 g.greatest.toNat * x.denominator < x.numerator

end Finite

namespace Binary

def isFinite : Binary f → Bool
  | .finite _ => true
  | _ => false

def isNan : Binary f → Bool
  | .nan => true
  | _ => false

def exceeds : Binary f → Format → Bool
  | .finite x, g => x.exceeds g
  | .infinite _, _ => true
  | .nan, _ => false

def equals : (a b : Binary f) → Bool
  | .finite x, .finite y => (x.isZero && y.isZero) || x = y
  | .infinite a, .infinite b => a = b
  | _, _ => false

end Binary
end FieldGateway
