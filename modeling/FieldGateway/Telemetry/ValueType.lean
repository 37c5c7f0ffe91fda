import FieldGateway.Text.Basic

namespace FieldGateway

inductive IntegerType where
  | uint8 | uint16 | uint32 | uint64
  | int8 | int16 | int32 | int64
deriving DecidableEq

namespace IntegerType

def bits : IntegerType → Nat
  | uint8 | int8 => 8
  | uint16 | int16 => 16
  | uint32 | int32 => 32
  | uint64 | int64 => 64

def signed : IntegerType → Bool
  | int8 | int16 | int32 | int64 => true
  | _ => false

def least (t : IntegerType) : Int := if t.signed then -(Nat.pow 2 (t.bits - 1) : Int) else 0

def greatest (t : IntegerType) : Int :=
  if t.signed then (Nat.pow 2 (t.bits - 1) : Int) - 1 else (Nat.pow 2 t.bits : Int) - 1

def Holds (t : IntegerType) (i : Int) : Prop := t.least ≤ i ∧ i ≤ t.greatest

instance (t : IntegerType) (i : Int) : Decidable (t.Holds i) :=
  inferInstanceAs (Decidable (_ ∧ _))

def name : IntegerType → Text
  | uint8 => "Uint8"
  | uint16 => "Uint16"
  | uint32 => "Uint32"
  | uint64 => "Uint64"
  | int8 => "Int8"
  | int16 => "Int16"
  | int32 => "Int32"
  | int64 => "Int64"

end IntegerType

-- The declared type of a resource's values. Unknown names are kept, so that a bad schema
-- does harm only when a reading arrives.
inductive ValueType where
  | bool
  | text
  | integer (type : IntegerType)
  | single
  | double
  | object
  | other (name : Text)
deriving DecidableEq

namespace ValueType

def known : List ValueType :=
  [.bool, .text, .integer .uint8, .integer .uint16, .integer .uint32, .integer .uint64,
    .integer .int8, .integer .int16, .integer .int32, .integer .int64, .single, .double, .object]

def name : ValueType → Text
  | bool => "Bool"
  | text => "String"
  | integer type => type.name
  | single => "Float32"
  | double => "Float64"
  | object => "Object"
  | other name => name

def ofName (t : Text) : ValueType :=
  match known.find? (·.name = t) with
  | some type => type
  | none => .other t

def isKnown : ValueType → Bool
  | other _ => false
  | _ => true

end ValueType
end FieldGateway
