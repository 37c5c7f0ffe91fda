import FieldGateway.Binary.Rounding
import FieldGateway.Json.Basic
import FieldGateway.OpcUa.Guid
import FieldGateway.OpcUa.Moment
import FieldGateway.Telemetry.ValueType
import FieldGateway.Text.Base64

namespace FieldGateway.OpcUa

-- A value as a server sends it. Kinds without a counterpart in a reading are kept by the text
-- that describes them.
inductive Variant where
  | empty
  | bool (value : Bool)
  | integer (type : IntegerType) (value : Int) (within : type.Holds value)
  | single (value : Binary .single)
  | double (value : Binary .double)
  | text (value : Option Text)
  | moment (value : Moment)
  | guid (value : Guid)
  | bytes (value : Option (List Byte))
  | array (items : List Variant)
  | described (text : Text)

namespace Variant

def integerTypes : List (Text × IntegerType) :=
  [("SByte", .int8), ("Byte", .uint8), ("Int16", .int16), ("UInt16", .uint16), ("Int32", .int32),
    ("UInt32", .uint32), ("Int64", .int64), ("UInt64", .uint64)]

def ofInteger? (type : IntegerType) (i : Int) : Option Variant :=
  if within : type.Holds i then some (.integer type i within) else none

mutual
def reading : Variant → Json
  | .empty => .null
  | .bool b => .bool b
  | .integer _ i _ => Json.ofInt i
  | .single x => Json.ofBinary (Binary.convert .double x)
  | .double x => Json.ofBinary x
  | .text t => .text (t.getD [])
  | .moment m => .text m.text
  | .guid g => .text g.text
  | .bytes (some bs) => .text (Text.base64 bs)
  | .bytes none => .null
  | .array items => .array (readings items)
  | .described t => .text t
def readings : List Variant → List Json
  | [] => []
  | item :: items => reading item :: readings items
end

end Variant
end FieldGateway.OpcUa
