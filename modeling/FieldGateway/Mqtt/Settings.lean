import FieldGateway.Mqtt.Payload
import FieldGateway.Network.Address
import FieldGateway.Network.Host
import FieldGateway.Schema.FieldSet
import FieldGateway.Text.Duration
import FieldGateway.Topic.Template

namespace FieldGateway.Mqtt

inductive Quality where
  | atMostOnce
  | atLeastOnce
  | exactlyOnce
deriving DecidableEq

inductive QualityDefect where
  | unknownLevel (level : Nat)
deriving DecidableEq

def QualityDefect.message : QualityDefect → Text
  | unknownLevel level => "invalid MQTT QoS " ++ Text.ofNat level

namespace Quality

def level : Quality → Nat
  | atMostOnce => 0
  | atLeastOnce => 1
  | exactlyOnce => 2

def ofLevel : Nat → Except QualityDefect Quality
  | 0 => .ok .atMostOnce
  | 1 => .ok .atLeastOnce
  | 2 => .ok .exactlyOnce
  | n => .error (.unknownLevel n)

end Quality

inductive Login where
  | anonymous
  | basic
deriving DecidableEq

namespace Login

def names : List (Text × Login) := [("anonymous", .anonymous), ("basic", .basic)]

def name : Login → Text
  | anonymous => "anonymous"
  | basic => "basic"

end Login

structure BrokerSettings where
  host : Text
  clientId : Option Text
  quality : Nat
  keepAlive : Nat
  retries : Nat
  retryInterval : Nat
  login : Login
  credentialDir : Option Text
deriving DecidableEq

namespace BrokerSettings

def standardRetryInterval : Nat := 10000

def fields (placement : Schema.Placement) : Schema.FieldSet BrokerSettings :=
  let text := Schema.Decoder.text placement
  let unsigned := Schema.Decoder.unsigned placement
  (Schema.FieldSet.done BrokerSettings.mk)
    |>.next (.required "host" text)
    |>.next (.optional "clientId" text)
    |>.next (.defaulted "qos" 0 (unsigned "u8" 255))
    |>.next (.defaulted "keepAlive" 0 (unsigned "u16" 65535))
    |>.next (.defaulted "connEstablishingRetry" 0 (unsigned "usize" u64Greatest))
    |>.next (.defaulted "retryIntervalMs" standardRetryInterval (unsigned "u64" u64Greatest))
    |>.next (.defaulted "authMode" .anonymous (Schema.Decoder.choice placement Login.names))
    |>.next (.optional "credentialDir" text)

def decode : Schema.Decoder BrokerSettings := (fields .own).decode "MqttBrokerInfo"

def ofHost (host : Text) : BrokerSettings :=
  ⟨host, none, 0, 0, 0, standardRetryInterval, .anonymous, none⟩

end BrokerSettings

structure SubscriberSettings where
  broker : BrokerSettings
  subTopic : Text
  pubTopic : Option Text
deriving DecidableEq

structure TopicSettings where
  subTopic : Text
  pubTopic : Option Text

namespace TopicSettings

def fields : Schema.FieldSet TopicSettings :=
  (Schema.FieldSet.done TopicSettings.mk)
    |>.next (.required "subTopic" (Schema.Decoder.text .own))
    |>.next (.optional "pubTopic" (Schema.Decoder.text .own))

end TopicSettings

namespace SubscriberSettings

-- What is not a topic is laid aside for the broker's fields, and that has no room for numbers
-- of more than 64 bits.
def laidAside (properties : Json.Fields) : List (Text × Schema.Defect) :=
  (properties.filter fun entry => entry.1 ∉ TopicSettings.fields.names).filterMap fun (key, value) =>
    (Json.firstWide? value).map fun i => (key, .wideInteger i)

def ofProperties (properties : Json.Fields) : Except Schema.Defect SubscriberSettings :=
  let given := fun name => Table.get? name properties
  let topics : Schema.Outcome TopicSettings :=
    match laidAside properties, TopicSettings.fields.read given with
    | [], outcome => outcome
    | wide, .complete _ => .broken wide []
    | wide, .broken defects missing => .broken (defects ++ wide) missing
  match topics with
  | .broken defects missing => match Schema.FieldSet.earliest defects with
    | some (_, defect) => .error defect
    | none => .error (.missingField (missing.headD []))
  | .complete topics =>
    match Schema.FieldSet.ofObject (BrokerSettings.fields .shared) properties with
    | .error defect => .error defect
    | .ok broker => .ok ⟨broker, topics.subTopic, topics.pubTopic⟩

end SubscriberSettings

structure PublisherSettings where
  host : Option Text
  dataTopic : Text
  layout : Layout
  brokerAddress : Option Text
deriving DecidableEq

namespace PublisherSettings

def fields : Schema.FieldSet PublisherSettings :=
  let text := Schema.Decoder.text .own
  (Schema.FieldSet.done PublisherSettings.mk)
    |>.next (.optional "host" text)
    |>.next (.defaulted "dataTopic" Topic.Template.standard text)
    |>.next (.defaulted "payloadFormat" .map Layout.decode)
    |>.next (.optional "embeddedBrokerAddr" text)

def ofProperties (properties : Json.Fields) : Except Schema.Defect PublisherSettings :=
  Schema.FieldSet.ofObject fields properties

end PublisherSettings
end FieldGateway.Mqtt
