import FieldGateway.Binary.Reader
import FieldGateway.Json.Basic
import FieldGateway.Text.Quoted

namespace FieldGateway

-- A YAML document. Real numbers keep their text. An alias stands only in trees that nobody has
-- read from a text; what was marked with a type it does not have is `bad`.
inductive Yaml where
  | null
  | bool (value : Bool)
  | integer (value : Int)
  | real (text : Text)
  | text (value : Text)
  | list (items : List Yaml)
  | map (entries : List (Yaml × Yaml))
  | alias (anchor : Nat)
  | bad

namespace Yaml

mutual
def same : (a b : Yaml) → Bool
  | .null, .null => true
  | .bool x, .bool y => x = y
  | .integer x, .integer y => x = y
  | .real x, .real y => x = y
  | .text x, .text y => x = y
  | .list x, .list y => sameItems x y
  | .map x, .map y => sameEntries x y
  | .alias x, .alias y => x = y
  | .bad, .bad => true
  | _, _ => false
def sameItems : (a b : List Yaml) → Bool
  | [], [] => true
  | x :: xs, y :: ys => same x y && sameItems xs ys
  | _, _ => false
def sameEntries : (a b : List (Yaml × Yaml)) → Bool
  | [], [] => true
  | (k, x) :: xs, (l, y) :: ys => same k l && same x y && sameEntries xs ys
  | _, _ => false
end

-- A key that is there already moves to the end with its new value.
def insert (key value : Yaml) (entries : List (Yaml × Yaml)) : List (Yaml × Yaml) :=
  entries.filter (fun entry => !same entry.1 key) ++ [(key, value)]

def infinityWords : List Text := [".inf", ".Inf", ".INF", "+.inf", "+.Inf", "+.INF"]
def minusInfinityWords : List Text := ["-.inf", "-.Inf", "-.INF"]
def nanWords : List Text := [".nan", "NaN", ".NAN"]

def realValue? (t : Text) : Option (Binary .double) :=
  if t ∈ infinityWords then some (.infinite false)
  else if t ∈ minusInfinityWords then some (.infinite true)
  else if t ∈ nanWords then some .nan
  else Binary.read? .double t

def decimal? (t : Text) : Option Int := Text.signed? 10 i64Least i64Greatest t

-- Integers with a mark for their base, or with a plus sign in front of a whole signed number.
def marked? (t : Text) : Option Int :=
  match t with
  | '0' :: 'x' :: digits => Text.signed? 16 i64Least i64Greatest digits
  | '0' :: 'o' :: digits => Text.signed? 8 i64Least i64Greatest digits
  | '+' :: digits => decimal? digits
  | _ => none

def ofPlain (t : Text) : Yaml :=
  match marked? t with
  | some i => .integer i
  | none =>
    if t = "~" ∨ t = "null" then .null
    else if t = "true" then .bool true
    else if t = "false" then .bool false
    else match decimal? t with
      | some i => .integer i
      | none => if (realValue? t).isSome then .real t else .text t

def ofTagged (suffix t : Text) : Yaml :=
  if suffix = "bool" then
    if t = "true" then .bool true else if t = "false" then .bool false else .bad
  else if suffix = "int" then
    match decimal? t with
    | some i => .integer i
    | none => .bad
  else if suffix = "float" then
    if (realValue? t).isSome then .real t else .bad
  else if suffix = "null" then
    if t = "~" ∨ t = "null" then .null else .bad
  else .text t

mutual
def described : Yaml → Text
  | .null => "Null"
  | .bool true => "Boolean(true)"
  | .bool false => "Boolean(false)"
  | .integer i => "Integer(" ++ Text.ofInt i ++ ")"
  | .real t => "Real(" ++ Text.quoted t ++ ")"
  | .text t => "String(" ++ Text.quoted t ++ ")"
  | .list items => "Array([" ++ Text.separated ", " (describedItems items) ++ "])"
  | .map entries =>
    "Hash(" ++ ('{' :: Text.separated ", " (describedEntries entries) ++ ['}']) ++ ")"
  | .alias n => "Alias(" ++ Text.ofNat n ++ ")"
  | .bad => "BadValue"
def describedItems : List Yaml → List Text
  | [] => []
  | item :: items => described item :: describedItems items
def describedEntries : List (Yaml × Yaml) → List Text
  | [] => []
  | (key, value) :: entries => (described key ++ ": " ++ described value) :: describedEntries entries
end

inductive Defect where
  | unreadableNumber (node : Yaml)
  | unsupportedKey (key : Yaml)
  | unsupportedValue (node : Yaml)

def Defect.message : Defect → Text
  | unreadableNumber node => "invalid number " ++ node.described
  | unsupportedKey key => "unsupported mapping key " ++ key.described
  | unsupportedValue node => "unsupported value " ++ node.described

def keyText? : Yaml → Option Text
  | .text t => some t
  | .real t => some t
  | .integer i => some (Text.ofInt i)
  | .bool true => some "true"
  | .bool false => some "false"
  | _ => none

-- Of entries whose keys have the same text the last one counts. Numbers that JSON cannot write
-- become null.
mutual
def toJson : Yaml → Except Defect Json
  | .null => .ok .null
  | .bool b => .ok (.bool b)
  | .integer i => .ok (Json.ofInt i)
  | .real t => match realValue? t with
    | some x => .ok (Json.ofBinary x)
    | none => .error (.unreadableNumber (.real t))
  | .text t => .ok (.text t)
  | .list items => match toItems items with
    | .ok documents => .ok (.array documents)
    | .error defect => .error defect
  | .map entries => match toFields [] entries with
    | .ok fields => .ok (.object fields)
    | .error defect => .error defect
  | .alias n => .error (.unsupportedValue (.alias n))
  | .bad => .error (.unsupportedValue .bad)
def toItems : List Yaml → Except Defect (List Json)
  | [] => .ok []
  | item :: items => match toJson item with
    | .error defect => .error defect
    | .ok document => match toItems items with
      | .error defect => .error defect
      | .ok documents => .ok (document :: documents)
def toFields (fields : Json.Fields) : List (Yaml × Yaml) → Except Defect Json.Fields
  | [] => .ok fields
  | (key, value) :: entries => match keyText? key with
    | none => .error (.unsupportedKey key)
    | some name => match toJson value with
      | .error defect => .error defect
      | .ok document => toFields (Table.put name document fields) entries
end

end Yaml
end FieldGateway
