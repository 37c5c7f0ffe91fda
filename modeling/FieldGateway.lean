import FieldGateway.Main
import FieldGateway.Proofs.Rack.Balance
import FieldGateway.Proofs.Rack.Installing
import FieldGateway.Proofs.Topic.Filter
import FieldGateway.Proofs.Telemetry.Integer
import FieldGateway.Proofs.Telemetry.RoundTrip
import FieldGateway.Proofs.OpcUa.Standing
import FieldGateway.Proofs.OpcUa.Service
import FieldGateway.Proofs.OpcUa.Session
import FieldGateway.Proofs.OpcUa.Dispatch
import FieldGateway.Proofs.OpcUa.Handles
import FieldGateway.Proofs.Startup
import FieldGateway.Proofs.OpcUa.Renewal
import FieldGateway.Proofs.OpcUa.Forwarding
import FieldGateway.Proofs.Json.Structure
import FieldGateway.Proofs.Mqtt.Registrations
import FieldGateway.Proofs.Text.Bytes
import FieldGateway.Proofs.Mqtt.Forwarding
import FieldGateway.Proofs.Text.ByteOrder
import FieldGateway.Proofs.Mqtt.Payload
import FieldGateway.Proofs.Mqtt.Arrivals
import FieldGateway.Proofs.Schema.RoundTrip
import FieldGateway.Proofs.Mqtt.Topics
import FieldGateway.Proofs.OpcUa.Adding
import FieldGateway.Proofs.Telemetry.Hexadecimal
import FieldGateway.Proofs.OpcUa.NodeId
import FieldGateway.Proofs.Yaml.Tree
import FieldGateway.Proofs.OpcUa.Variant
import FieldGateway.Proofs.Mqtt.Connecting
import FieldGateway.Proofs.Telemetry.Truth
import FieldGateway.Proofs.Mqtt.Grants
import FieldGateway.Proofs.Mqtt.Ownership
import FieldGateway.Proofs.Network.Host
import FieldGateway.Proofs.Settings.Texts
import FieldGateway.Proofs.CommandLine
import FieldGateway.Proofs.Catalog
import FieldGateway.Proofs.Mqtt.OwnBroker
import FieldGateway.Proofs.Toml.Document
import FieldGateway.Proofs.Toml.Moment
import FieldGateway.Proofs.Toml.Number
import FieldGateway.Proofs.Yaml.Agreement
