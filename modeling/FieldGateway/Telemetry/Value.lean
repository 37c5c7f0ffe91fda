import FieldGateway.Json.Printer
import FieldGateway.Telemetry.ValueType

namespace FieldGateway

inductive Value where
  | bool (value : Bool)
  | text (value : Text)
  | integer (type : IntegerType) (value : Int) (within : type.Holds value)
  | single (value : Binary .single)
  | double (value : Binary .double)
  | object (value : Json)
deriving DecidableEq

namespace Value

def type : Value → ValueType
  | bool _ => .bool
  | text _ => .text
  | integer type _ _ => .integer type
  | single _ => .single
  | double _ => .double
  | object _ => .object

def toJson : Value → Json
  | bool b => .bool b
  | text t => .text t
  | integer _ i _ => .ofInt i
  | single x => .ofSingle x
  | double x => .ofBinary x
  | object document => document

-- A value is also written directly, without becoming a document.
def render : Value → Text
  | bool b => if b then "true" else "false"
  | text t => Json.quotedText t
  | integer _ i _ => Text.ofInt i
  | single (.finite x) => (Json.Numeral.ofSingle x).text
  | double (.finite x) => (Json.Numeral.ofDouble x).text
  | single _ | double _ => "null"
  | object document => document.render

end Value

structure Telemetry where
  name : Text
  type : ValueType
  value : Value
  stamp : Int
deriving DecidableEq

def Telemetry.render (t : Telemetry) : Text :=
  Json.renderWritten [("name", Json.quotedText t.name), ("type", Json.quotedText t.type.name),
    ("value", t.value.render), ("createTimestamp", Text.ofInt t.stamp)]

end FieldGateway
