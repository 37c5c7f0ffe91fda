import FieldGateway.Text.Bytes

namespace FieldGateway.Text

def sextetChar (n : Nat) : Char :=
  if n < 26 then Char.ofNat (65 + n)
  else if n < 52 then Char.ofNat (71 + n)
  else if n < 62 then Char.ofNat (n - 4)
  else if n = 62 then '+' else '/'

def sextet? (c : Char) : Option Nat :=
  let n := c.toNat
  if 65 ≤ n ∧ n < 91 then some (n - 65)
  else if 97 ≤ n ∧ n < 123 then some (n - 71)
  else if 48 ≤ n ∧ n < 58 then some (n + 4)
  else if c = '+' then some 62
  else if c = '/' then some 63
  else none

def base64 : List Byte → Text
  | [] => []
  | [a] => [sextetChar (a.val / 4), sextetChar (a.val % 4 * 16), '=', '=']
  | [a, b] =>
    [sextetChar (a.val / 4), sextetChar (a.val % 4 * 16 + b.val / 16), sextetChar (b.val % 16 * 4), '=']
  | a :: b :: c :: rest =>
    sextetChar (a.val / 4) :: sextetChar (a.val % 4 * 16 + b.val / 16) ::
      sextetChar (b.val % 16 * 4 + c.val / 64) :: sextetChar (c.val % 64) :: base64 rest

-- Padding is required and the bits that belong to no byte must be zero, so that a list of
-- bytes has one spelling only.
def ofBase64? : Text → Option (List Byte)
  | [] => some []
  | [a, b, '=', '='] => do
    let a ← sextet? a
    let b ← sextet? b
    if b % 16 = 0 then some [Byte.ofNat (a * 4 + b / 16)] else none
  | [a, b, c, '='] => do
    let a ← sextet? a
    let b ← sextet? b
    let c ← sextet? c
    if c % 4 = 0 then some [Byte.ofNat (a * 4 + b / 16), Byte.ofNat (b * 16 + c / 4)] else none
  | a :: b :: c :: d :: rest => do
    let a ← sextet? a
    let b ← sextet? b
    let c ← sextet? c
    let d ← sextet? d
    let bytes ← ofBase64? rest
    some (Byte.ofNat (a * 4 + b / 16) :: Byte.ofNat (b * 16 + c / 4) ::
      Byte.ofNat (c * 64 + d) :: bytes)
  | _ => none

end FieldGateway.Text
