import FieldGateway.Json.Printer
import FieldGateway.Schema.Decoder
import FieldGateway.Telemetry.Value

namespace FieldGateway.Mqtt

inductive Layout where
  | object
  | map
deriving DecidableEq

namespace Layout

def names : List (Text × Layout) := [("jsonObj", .object), ("jsonMap", .map)]

def name : Layout → Text
  | object => "jsonObj"
  | map => "jsonMap"

def decode : Schema.Decoder Layout := Schema.Decoder.choice .own names

def encode (l : Layout) (t : Telemetry) : Text :=
  match l with
  | object => t.render
  | map => (Json.object [(t.name, t.value.toJson)]).render

end Layout
end FieldGateway.Mqtt
