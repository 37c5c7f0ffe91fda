import FieldGateway.Mqtt.Publisher
import FieldGateway.OpcUa.Settings

-- The drivers and buses that a gateway knows without being told.
namespace FieldGateway

inductive DriverKind where
  | mqtt
  | opcua
deriving DecidableEq

inductive BusKind where
  | mqtt
deriving DecidableEq

namespace Catalog

def version : Text := "0.1.0"

def driverTypes : List (Text × DriverKind) := [("mqtt", .mqtt), ("opcua", .opcua)]
def busTypes : List (Text × BusKind) := [("mqtt", .mqtt)]

def checkDriver (kind : DriverKind) (properties : Json.Fields) : Attempt Unit :=
  match kind with
  | .mqtt => (Mqtt.Subscriber.ofProperties properties []).map fun _ => ()
  | .opcua => match OpcUa.Settings.ofProperties properties with
    | .ok _ => .ok ()
    | .error defect => .error (.configInvalid defect.message)

-- An unknown type builds nothing, and that is no fault.
def driver? (spec : DriverSpec) : Attempt (Option DriverKind) :=
  match driverTypes.lookup spec.type with
  | none => .ok none
  | some kind => (checkDriver kind spec.properties).map fun _ => some kind

def bus? (spec : BusSpec) : Attempt (Option BusKind) :=
  if spec.enabled then
    match busTypes.lookup spec.type with
    | none => .ok none
    | some kind => (Mqtt.Publisher.ofProperties spec.properties).map fun _ => some kind
  else .ok none

end Catalog
end FieldGateway
