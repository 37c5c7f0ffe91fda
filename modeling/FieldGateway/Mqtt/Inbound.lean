import FieldGateway.Json.Reader
import FieldGateway.Mqtt.Handshake
import FieldGateway.Schema.Device
import FieldGateway.Telemetry.Bus
import FieldGateway.Telemetry.Conversion

-- From an arrived message to the results that the buses get.
namespace FieldGateway.Mqtt

def payloadFields? (payload : List Byte) : Option Json.Fields :=
  match (Text.ofBytes? payload).bind Json.read? with
  | some (.object fields) => some fields
  | _ => none

-- One result for every field that names a resource and fits its type. A fault that is not
-- about the reading alone ends the message.
def deliveriesOf (device : Device) (stamp : Int) : List (Text × Json) → List Delivery
  | [] => []
  | (key, reading) :: fields =>
    match device.resource? key with
    | none => deliveriesOf device stamp fields
    | some resource =>
      match Telemetry.ofReading resource.name resource.type stamp reading with
      | .ok telemetry => ⟨device.name, telemetry⟩ :: deliveriesOf device stamp fields
      | .error fault => if fault.perReading then deliveriesOf device stamp fields else []

def deliveries (devices : Table Device) (filter : Text) (stamp : Int) (m : Message) : List Delivery :=
  match Topic.deviceName? filter m.topic with
  | none => []
  | some name => match Table.get? name devices with
    | none => []
    | some device => match payloadFields? m.payload with
      | none => []
      | some fields => deliveriesOf device stamp fields

end FieldGateway.Mqtt
