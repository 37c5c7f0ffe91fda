import FieldGateway.Json.Guess
import FieldGateway.Text.Quoted

namespace FieldGateway.Schema

inductive Found where
  | null
  | bool (value : Bool)
  | number
  | integer (value : Int)
  | real (value : Finite .double)
  | text (value : Text)
  | sequence
  | map

def Found.message : Found → Text
  | null => "null"
  | bool true => "boolean `true`"
  | bool false => "boolean `false`"
  | number => "number"
  | integer i => "integer `" ++ Text.ofInt i ++ "`"
  | real x => "floating point `" ++ (Json.Numeral.ofDouble x).text ++ "`"
  | text t => "string " ++ Text.quoted t
  | sequence => "sequence"
  | map => "map"

inductive Defect where
  | wrongType (found : Found) (expected : Text)
  | outOfRange (value : Int) (expected : Text)
  | wideInteger (value : Int)
  | unreadableNumber
  | unknownChoice (found : Text) (choices : List Text)
  | notOneKey
  | missingField (name : Text)
  | tooShort (items : Nat) (title : Text) (fields : Nat)
  | tooLong (items : Nat)

def ticked (t : Text) : Text := "`" ++ t ++ "`"

def offered : List Text → Text
  | [a, b] => "expected " ++ ticked a ++ " or " ++ ticked b
  | choices => "expected one of " ++ Text.separated ", " (choices.map ticked)

namespace Defect

def message : Defect → Text
  | wrongType found expected => "invalid type: " ++ found.message ++ ", expected " ++ expected
  | outOfRange i expected => "invalid value: integer `" ++ Text.ofInt i ++ "`, expected " ++ expected
  | wideInteger i =>
    "invalid type: integer `" ++ Text.ofInt i ++ "` as " ++ (if i < 0 then "i128" else "u128") ++
      ", expected any value"
  | unreadableNumber => "invalid number"
  | unknownChoice found choices => "unknown variant " ++ ticked found ++ ", " ++ offered choices
  | notOneKey => "invalid value: map, expected map with a single key"
  | missingField name => "missing field " ++ ticked name
  | tooShort items title fields =>
    "invalid length " ++ Text.ofNat items ++ ", expected struct " ++ title ++ " with " ++
      Text.ofNat fields ++ (if fields = 1 then " element" else " elements")
  | tooLong items =>
    "invalid length " ++ Text.ofNat items ++ ", expected fewer elements in array"

end Defect

abbrev Decoder (α : Type) := Json → Except Defect α

end FieldGateway.Schema
