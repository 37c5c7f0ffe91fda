import FieldGateway.Text.Basic

namespace FieldGateway

abbrev Digit := Fin 10

def Digit.zero : Digit := ⟨0, by decide⟩

def Digit.char (d : Digit) : Char := Char.ofNat (48 + d.val)

def Digit.ofChar? (c : Char) : Option Digit :=
  if h : 48 ≤ c.toNat ∧ c.toNat < 58 then some ⟨c.toNat - 48, by omega⟩ else none

def Digit.value (digits : List Digit) : Nat := digits.foldl (fun n d => n * 10 + d.val) 0

def Digit.texts (digits : List Digit) : Text := digits.map Digit.char

def Digit.run : Text → List Digit × Text
  | [] => ([], [])
  | c :: rest =>
    match Digit.ofChar? c with
    | some d => let (digits, left) := Digit.run rest; (d :: digits, left)
    | none => ([], c :: rest)

def Digit.ofNat (n : Nat) : List Digit :=
  if n < 10 then [Fin.ofNat 10 n] else Digit.ofNat (n / 10) ++ [Fin.ofNat 10 (n % 10)]
termination_by n

namespace Text

def ofNat (n : Nat) : Text := Digit.texts (Digit.ofNat n)

def ofInt (i : Int) : Text :=
  if i < 0 then '-' :: ofNat i.natAbs else ofNat i.natAbs

def hexDigit? (c : Char) : Option Nat :=
  let n := c.toNat
  if 48 ≤ n ∧ n < 58 then some (n - 48)
  else if 97 ≤ n ∧ n < 103 then some (n - 87)
  else if 65 ≤ n ∧ n < 71 then some (n - 55)
  else none

def hexChar (n : Nat) : Char := if n < 10 then Char.ofNat (48 + n) else Char.ofNat (87 + n)

def digit? (base : Nat) (c : Char) : Option Nat :=
  match hexDigit? c with
  | some n => if n < base then some n else none
  | none => none

def natural? (base : Nat) (t : Text) : Option Nat :=
  if t.isEmpty then none
  else (t.mapM (digit? base)).map fun digits => digits.foldl (fun n d => n * base + d) 0

def unsigned? (base greatest : Nat) (t : Text) : Option Nat :=
  match natural? base ((after? ['+'] t).getD t) with
  | some n => if n ≤ greatest then some n else none
  | none => none

def signed? (base : Nat) (least greatest : Int) (t : Text) : Option Int :=
  let read : Option Int :=
    match after? ['-'] t with
    | some digits => (natural? base digits).map fun n => -(n : Int)
    | none => (natural? base ((after? ['+'] t).getD t)).map Int.ofNat
  match read with
  | some i => if least ≤ i ∧ i ≤ greatest then some i else none
  | none => none

def hexPadded (width : Nat) (n : Nat) : Text :=
  match width with
  | 0 => []
  | width + 1 => hexPadded width (n / 16) ++ [hexChar (n % 16)]

def hex (n : Nat) : Text :=
  if n < 16 then [hexChar n] else hex (n / 16) ++ [hexChar (n % 16)]
termination_by n

end Text

def i64Least : Int := -9223372036854775808
def i64Greatest : Int := 9223372036854775807
def u64Greatest : Nat := 18446744073709551615
def i128Least : Int := -170141183460469231731687303715884105728
def i128Greatest : Int := 170141183460469231731687303715884105727

end FieldGateway
