import FieldGateway.Schema.FieldSet
import FieldGateway.Telemetry.ValueType

namespace FieldGateway

inductive Access where
  | read
  | write
  | readWrite
  | writeRead
deriving DecidableEq

-- What a resource's values mean and how they are meant to be used. Only the value type matters
-- to the gateway; the rest is carried along.
structure Traits where
  access : Access
  valueType : ValueType
  units : Option Text
  defaultValue : Option Text
  assertion : Option Text
  mediaType : Option Text
  minimum : Option (Binary .double)
  maximum : Option (Binary .double)
  mask : Option Nat
  shift : Option Int
  scale : Option (Binary .double)
  offset : Option (Binary .double)
  base : Option (Binary .double)
  optional : Json.Fields

structure Resource where
  name : Text
  description : Option Text
  traits : Traits
  attributes : Json.Fields

namespace Access

def names : List (Text × Access) :=
  [("R", .read), ("W", .write), ("RW", .readWrite), ("WR", .writeRead)]

def name : Access → Text
  | read => "R"
  | write => "W"
  | readWrite => "RW"
  | writeRead => "WR"

def decode : Schema.Decoder Access := Schema.Decoder.choice .own names

def toJson (a : Access) : Json := .text a.name

end Access

def ValueType.decode : Schema.Decoder ValueType :=
  fun given => (Schema.Decoder.text .own given).map ValueType.ofName

namespace Traits

def ofType (type : ValueType) : Traits :=
  ⟨.read, type, none, none, none, none, none, none, none, none, none, none, none, []⟩

def fields : Schema.FieldSet Traits :=
  let text := Schema.Decoder.text .own
  let double := Schema.Decoder.double
  (Schema.FieldSet.done Traits.mk)
    |>.next (.defaulted "readWrite" .read Access.decode)
    |>.next (.required "valueType" ValueType.decode)
    |>.next (.optional "units" text)
    |>.next (.optional "defaultValue" text)
    |>.next (.optional "assertion" text)
    |>.next (.optional "mediaType" text)
    |>.next (.optional "minimum" double)
    |>.next (.optional "maximum" double)
    |>.next (.optional "mask" (Schema.Decoder.unsigned .own "u64" u64Greatest))
    |>.next (.optional "shift" Schema.Decoder.signed64)
    |>.next (.optional "scale" double)
    |>.next (.optional "offset" double)
    |>.next (.optional "base" double)
    |>.next (.defaulted "optional" [] Schema.Decoder.properties)

def decode : Schema.Decoder Traits := fields.decode "ResourceProperties"

def toJson (t : Traits) : Json :=
  Schema.written [("readWrite", some t.access.toJson), ("valueType", some (.text t.valueType.name)),
    ("units", t.units.map .text), ("defaultValue", t.defaultValue.map .text),
    ("assertion", t.assertion.map .text), ("mediaType", t.mediaType.map .text),
    ("minimum", t.minimum.map Json.ofBinary), ("maximum", t.maximum.map Json.ofBinary),
    ("mask", t.mask.map Json.ofNat), ("shift", t.shift.map Json.ofInt),
    ("scale", t.scale.map Json.ofBinary), ("offset", t.offset.map Json.ofBinary),
    ("base", t.base.map Json.ofBinary), ("optional", some (.object t.optional))]

def sameLimit : (a b : Option (Binary .double)) → Bool
  | some a, some b => a.equals b
  | none, none => true
  | _, _ => false

-- Limits are compared as numbers, everything else as it is written.
def equals (a b : Traits) : Bool :=
  a.access = b.access && a.valueType = b.valueType && a.units = b.units &&
    a.defaultValue = b.defaultValue && a.assertion = b.assertion && a.mediaType = b.mediaType &&
    sameLimit a.minimum b.minimum && sameLimit a.maximum b.maximum &&
    a.mask = b.mask && a.shift = b.shift && sameLimit a.scale b.scale &&
    sameLimit a.offset b.offset && sameLimit a.base b.base && a.optional = b.optional

instance : BEq Traits := ⟨equals⟩

end Traits

deriving instance BEq for Resource

namespace Resource

def fields : Schema.FieldSet Resource :=
  (Schema.FieldSet.done Resource.mk)
    |>.next (.required "name" (Schema.Decoder.text .own))
    |>.next (.optional "description" (Schema.Decoder.text .own))
    |>.next (.defaulted "properties" (Traits.ofType .text) Traits.decode)
    |>.next (.defaulted "attributes" [] Schema.Decoder.properties)

def decode : Schema.Decoder Resource := fields.decode "DeviceResource"

def toJson (r : Resource) : Json :=
  Schema.written [("name", some (.text r.name)), ("description", r.description.map .text),
    ("properties", some r.traits.toJson), ("attributes", some (.object r.attributes))]

def type (r : Resource) : ValueType := r.traits.valueType

def attribute? (key : Text) (r : Resource) : Option Text :=
  (Table.get? key r.attributes).bind Json.asText?

def find? (name : Text) (resources : List Resource) : Option Resource :=
  resources.find? (·.name = name)

end Resource
end FieldGateway
