import FieldGateway.Fault
import FieldGateway.Schema.Resource

namespace FieldGateway

structure Profile where
  resources : List Resource
deriving BEq

structure Device where
  name : Text
  driverType : Text
  manufacturer : Option Text
  model : Option Text
  description : Option Text
  addressing : Json.Fields
  profile : Profile
deriving BEq

structure DriverSpec where
  type : Text
  properties : Json.Fields
deriving DecidableEq

-- Which message bus to run, and its settings. A bus that is not enabled is never built.
structure BusSpec where
  enabled : Bool
  type : Text
  properties : Json.Fields
deriving DecidableEq

structure Command where
  device : Text
  resource : Text
  value : Json
deriving DecidableEq

namespace Profile

def fields : Schema.FieldSet Profile :=
  (Schema.FieldSet.done Profile.mk)
    |>.next (.defaulted "deviceResources" [] (Schema.Decoder.list Resource.decode))

def decode : Schema.Decoder Profile := fields.decode "DeviceProfile"

def toJson (p : Profile) : Json :=
  Schema.written [("deviceResources", some (.array (p.resources.map Resource.toJson)))]

end Profile

namespace Device

def fields : Schema.FieldSet Device :=
  let text := Schema.Decoder.text .own
  (Schema.FieldSet.done Device.mk)
    |>.next (.required "name" text)
    |>.next (.required "driverType" text)
    |>.next (.optional "manufacturer" text)
    |>.next (.optional "model" text)
    |>.next (.optional "description" text)
    |>.next (.defaulted "protocolProperties" [] Schema.Decoder.properties)
    |>.next (.defaulted "profile" ⟨[]⟩ Profile.decode)

def decode : Schema.Decoder Device := fields.decode "DeviceConfig"

def toJson (d : Device) : Json :=
  Schema.written [("name", some (.text d.name)), ("driverType", some (.text d.driverType)),
    ("manufacturer", d.manufacturer.map .text), ("model", d.model.map .text),
    ("description", d.description.map .text), ("protocolProperties", some (.object d.addressing)),
    ("profile", some d.profile.toJson)]

def resources (d : Device) : List Resource := d.profile.resources

def resource? (name : Text) (d : Device) : Option Resource := Resource.find? name d.resources

def checkDriver (type : Text) (d : Device) : Attempt Unit :=
  if d.driverType = type then .ok ()
  else .error (.configInvalid
    ("device " ++ d.name ++ " belongs to driver " ++ d.driverType ++ ", not " ++ type))

end Device

namespace DriverSpec

def fields : Schema.FieldSet DriverSpec :=
  (Schema.FieldSet.done DriverSpec.mk)
    |>.next (.required "type" (Schema.Decoder.text .own))
    |>.next (.defaulted "properties" [] Schema.Decoder.properties)

def decode : Schema.Decoder DriverSpec := fields.decode "DriverConfig"

def toJson (s : DriverSpec) : Json :=
  Schema.written [("type", some (.text s.type)), ("properties", some (.object s.properties))]

end DriverSpec

namespace BusSpec

def fields : Schema.FieldSet BusSpec :=
  (Schema.FieldSet.done BusSpec.mk)
    |>.next (.defaulted "enabled" false Schema.Decoder.bool)
    |>.next (.required "type" (Schema.Decoder.text .own))
    |>.next (.defaulted "properties" [] Schema.Decoder.properties)

def decode : Schema.Decoder BusSpec := fields.decode "MessageBusConfig"

def toJson (s : BusSpec) : Json :=
  Schema.written [("enabled", some (.bool s.enabled)), ("type", some (.text s.type)),
    ("properties", some (.object s.properties))]

end BusSpec

namespace Command

def fields : Schema.FieldSet Command :=
  (Schema.FieldSet.done Command.mk)
    |>.next (.required "deviceName" (Schema.Decoder.text .own))
    |>.next (.required "resourceName" (Schema.Decoder.text .own))
    |>.next (.required "value" Schema.Decoder.document)

def decode : Schema.Decoder Command := fields.decode "Command"

def toJson (c : Command) : Json :=
  Schema.written [("deviceName", some (.text c.device)), ("resourceName", some (.text c.resource)),
    ("value", some c.value)]

end Command
end FieldGateway
