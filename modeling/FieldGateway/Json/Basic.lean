import FieldGateway.Json.Numeral
import FieldGateway.Table

namespace FieldGateway

-- A JSON document. An object lists its fields in the order in which they are written. Those
-- of a document that has been read stand in ascending order of their keys, each key once,
-- because `Table.put` is how such an object grows.
inductive Json where
  | null
  | bool (value : Bool)
  | number (value : Json.Numeral)
  | text (value : Text)
  | array (items : List Json)
  | object (fields : List (Text × Json))

namespace Json

abbrev Fields := Table Json

def ofInt (i : Int) : Json := .number (Numeral.ofInt i)
def ofNat (n : Nat) : Json := .number (Numeral.ofNat n)
def ofDouble (x : Finite .double) : Json := .number (Numeral.ofDouble x)

def ofBinary : Binary .double → Json
  | .finite x => ofDouble x
  | _ => .null

def ofSingle : Binary .single → Json
  | .finite x => .number (Numeral.ofSingle x)
  | _ => .null

def isNull : Json → Bool
  | .null => true
  | _ => false

def asText? : Json → Option Text
  | .text t => some t
  | _ => none

mutual
def decideEq : (a b : Json) → Decidable (a = b)
  | .null, b => match b with
    | .null => isTrue rfl
    | .bool _ | .number _ | .text _ | .array _ | .object _ => isFalse nofun
  | .bool x, b => match b with
    | .bool y => if h : x = y then isTrue (by rw [h]) else isFalse fun e => h (Json.bool.inj e)
    | .null | .number _ | .text _ | .array _ | .object _ => isFalse nofun
  | .number x, b => match b with
    | .number y => if h : x = y then isTrue (by rw [h]) else isFalse fun e => h (Json.number.inj e)
    | .null | .bool _ | .text _ | .array _ | .object _ => isFalse nofun
  | .text x, b => match b with
    | .text y => if h : x = y then isTrue (by rw [h]) else isFalse fun e => h (Json.text.inj e)
    | .null | .bool _ | .number _ | .array _ | .object _ => isFalse nofun
  | .array xs, b => match b with
    | .array ys => match decideItems xs ys with
      | isTrue h => isTrue (by rw [h])
      | isFalse h => isFalse fun e => h (Json.array.inj e)
    | .null | .bool _ | .number _ | .text _ | .object _ => isFalse nofun
  | .object xs, b => match b with
    | .object ys => match decideFields xs ys with
      | isTrue h => isTrue (by rw [h])
      | isFalse h => isFalse fun e => h (Json.object.inj e)
    | .null | .bool _ | .number _ | .text _ | .array _ => isFalse nofun
def decideItems : (a b : List Json) → Decidable (a = b)
  | [], [] => isTrue rfl
  | [], _ :: _ => isFalse nofun
  | _ :: _, [] => isFalse nofun
  | x :: xs, y :: ys =>
    match decideEq x y, decideItems xs ys with
    | isTrue h, isTrue t => isTrue (by rw [h, t])
    | isFalse h, _ => isFalse fun e => h (List.cons.inj e).1
    | _, isFalse t => isFalse fun e => t (List.cons.inj e).2
def decideFields : (a b : List (Text × Json)) → Decidable (a = b)
  | [], [] => isTrue rfl
  | [], _ :: _ => isFalse nofun
  | _ :: _, [] => isFalse nofun
  | (k, x) :: xs, (l, y) :: ys =>
    match decEq k l, decideEq x y, decideFields xs ys with
    | isTrue g, isTrue h, isTrue t => isTrue (by rw [g, h, t])
    | isFalse g, _, _ => isFalse fun e => g (Prod.mk.inj (List.cons.inj e).1).1
    | _, isFalse h, _ => isFalse fun e => h (Prod.mk.inj (List.cons.inj e).1).2
    | _, _, isFalse t => isFalse fun e => t (List.cons.inj e).2
end

instance : DecidableEq Json := decideEq

end Json
end FieldGateway
