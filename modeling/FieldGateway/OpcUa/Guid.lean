import FieldGateway.Text.Digits

namespace FieldGateway.OpcUa

structure Guid where
  digits : List (Fin 16)
  full : digits.length = 32
deriving DecidableEq

namespace Guid

def digit? (c : Char) : Option (Fin 16) := (Text.hexDigit? c).map (Fin.ofNat 16)

def ofDigits? (t : Text) : Option Guid :=
  match t.mapM digit? with
  | some digits => if full : digits.length = 32 then some ⟨digits, full⟩ else none
  | none => none

def ofGroups? (t : Text) : Option Guid :=
  match Text.splitAll '-' t with
  | [a, b, c, d, e] =>
    if a.length = 8 ∧ b.length = 4 ∧ c.length = 4 ∧ d.length = 4 ∧ e.length = 12 then
      ofDigits? (a ++ b ++ c ++ d ++ e)
    else none
  | _ => none

def inBraces? (t : Text) : Option Text :=
  match t with
  | '{' :: rest => match Text.cutLast? '}' rest with
    | some (inner, []) => some inner
    | _ => none
  | _ => none

-- All digits in one run, or in groups; groups may stand in braces or behind `urn:uuid:`.
def read? (t : Text) : Option Guid :=
  match inBraces? t, Text.after? "urn:uuid:" t with
  | some inner, _ => ofGroups? inner
  | none, some named => ofGroups? named
  | none, none => if t.length = 32 then ofDigits? t else ofGroups? t

def text (g : Guid) : Text :=
  let t := g.digits.map fun d => Text.hexChar d.val
  Text.joinAll '-' [t.take 8, (t.drop 8).take 4, (t.drop 12).take 4, (t.drop 16).take 4, t.drop 20]

end Guid
end FieldGateway.OpcUa
