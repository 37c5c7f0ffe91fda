import FieldGateway.Json.Basic

-- A number is sometimes taken before anybody knows what its field wants: inside property bags,
-- and among fields that belong to different types.
namespace FieldGateway.Json

def u128Greatest : Int := 340282366920938463463374607431768211455

inductive Guess where
  | integer (value : Int)
  | wide (value : Int)
  | real (value : Finite .double)
  | literal

def Numeral.guess (n : Numeral) : Guess :=
  match n.toInt? with
  | some i =>
    if i64Least ≤ i ∧ i ≤ u64Greatest then .integer i
    else if i128Least ≤ i ∧ i ≤ u128Greatest then .wide i
    else guessReal n
  | none => guessReal n
where
  guessReal (n : Numeral) : Guess :=
    match n.toDouble? with
    | some x => if n = ofDouble x ∨ n = spelledOut x then .real x else .literal
    | none => .literal

-- The numeral that a property bag keeps.
def Numeral.canonical (n : Numeral) : Numeral :=
  match n.guess with
  | .integer i => ofInt i
  | .real x => ofDouble x
  | .wide _ | .literal => n

mutual
def canonical : Json → Json
  | .null => .null
  | .bool b => .bool b
  | .number n => .number n.canonical
  | .text t => .text t
  | .array items => .array (canonicalItems items)
  | .object fields => .object (canonicalFields fields)
def canonicalItems : List Json → List Json
  | [] => []
  | item :: items => canonical item :: canonicalItems items
def canonicalFields : List (Text × Json) → List (Text × Json)
  | [] => []
  | (key, value) :: fields => (key, canonical value) :: canonicalFields fields
end

mutual
def firstWide? : Json → Option Int
  | .number n => match n.guess with
    | .wide i => some i
    | _ => none
  | .array items => firstWideItem? items
  | .object fields => firstWideField? fields
  | _ => none
def firstWideItem? : List Json → Option Int
  | [] => none
  | item :: items => (firstWide? item).orElse fun _ => firstWideItem? items
def firstWideField? : List (Text × Json) → Option Int
  | [] => none
  | (_, value) :: fields => (firstWide? value).orElse fun _ => firstWideField? fields
end

end FieldGateway.Json
