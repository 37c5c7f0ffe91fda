import FieldGateway.Text.Basic

namespace FieldGateway

abbrev Byte := Fin 256

def Byte.ofNat (n : Nat) : Byte := ⟨n % 256, Nat.mod_lt n (by decide)⟩

namespace Text

def lowBits (n shift : Nat) : Nat := 0x80 + n / Nat.pow 2 shift % 64

def charBytes (c : Char) : List Byte :=
  let n := c.toNat
  let spelled :=
    if n < 0x80 then [n]
    else if n < 0x800 then [0xC0 + n / 64, lowBits n 0]
    else if n < 0x10000 then [0xE0 + n / 4096, lowBits n 6, lowBits n 0]
    else [0xF0 + n / 262144, lowBits n 12, lowBits n 6, lowBits n 0]
  spelled.map Byte.ofNat

def toBytes (t : Text) : List Byte := t.flatMap charBytes

-- A character whose first bytes have been read: how many continuation bytes are still due,
-- the bits so far, and the smallest code point that may take this many bytes.
structure PartialChar where
  due : Nat
  bits : Nat
  least : Nat

def leadingByte? (b : Byte) : Option PartialChar :=
  if 0xC0 ≤ b.val ∧ b.val < 0xE0 then some ⟨1, b.val - 0xC0, 0x80⟩
  else if 0xE0 ≤ b.val ∧ b.val < 0xF0 then some ⟨2, b.val - 0xE0, 0x800⟩
  else if 0xF0 ≤ b.val ∧ b.val < 0xF8 then some ⟨3, b.val - 0xF0, 0x10000⟩
  else none

def codePoint? (n : Nat) : Option Char :=
  if n.isValidChar then some (Char.ofNat n) else none

def ofBytesAfter? : Option PartialChar → List Byte → Option Text
  | none, [] => some []
  | some _, [] => none
  | none, b :: rest =>
    if b.val < 0x80 then (ofBytesAfter? none rest).map (Char.ofNat b.val :: ·)
    else match leadingByte? b with
      | some started => ofBytesAfter? (some started) rest
      | none => none
  | some started, b :: rest =>
    if 0x80 ≤ b.val ∧ b.val < 0xC0 then
      let bits := started.bits * 64 + (b.val - 0x80)
      if started.due ≤ 1 then
        if started.least ≤ bits then
          match codePoint? bits with
          | some c => (ofBytesAfter? none rest).map (c :: ·)
          | none => none
        else none
      else ofBytesAfter? (some ⟨started.due - 1, bits, started.least⟩) rest
    else none

-- UTF-8, in which every character has exactly one spelling: overlong forms and surrogates
-- are refused.
def ofBytes? (bytes : List Byte) : Option Text := ofBytesAfter? none bytes

end Text
end FieldGateway
