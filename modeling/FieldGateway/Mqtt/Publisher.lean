import FieldGateway.Mqtt.Subscriber

-- The bus that publishes every result. It may own the broker that it publishes to.
namespace FieldGateway.Mqtt

structure Publisher where
  host : Text
  template : Topic.Template
  layout : Layout
  ownsBroker : Bool
  running : Option Link
  opened : Nat
  history : List LinkEvent

namespace Publisher

def busType : Text := "mqtt"

def clientId : Text := "msgbus-mqtt-pub-client"
def keepAlive : Nat := 3600

def ofSettings (s : PublisherSettings) (host : Text) (ownsBroker : Bool) : Attempt Publisher :=
  match Topic.Template.read s.dataTopic with
  | .error defect => .error (.configInvalid defect.message)
  | .ok template => .ok ⟨host, template, s.layout, ownsBroker, none, 0, []⟩

-- Without a host the bus listens itself, on the given address or the standard one.
def ofProperties (properties : Json.Fields) : Attempt Publisher :=
  match PublisherSettings.ofProperties properties with
  | .error defect => .error (.configInvalid defect.message)
  | .ok settings => match settings.host with
    | some host => ofSettings settings host false
    | none => match Network.Address.read (settings.brokerAddress.getD Network.Address.standard.text) with
      | .error defect => .error (.configInvalid defect.message)
      | .ok address => ofSettings settings address.text true

def withBroker (properties : Json.Fields) (address : Text) : Attempt Publisher :=
  match PublisherSettings.ofProperties properties with
  | .error defect => .error (.configInvalid defect.message)
  | .ok settings => ofSettings settings address true

def broker (p : Publisher) : BrokerSettings :=
  { BrokerSettings.ofHost p.host with clientId := some clientId, keepAlive := keepAlive }

def record (p : Publisher) (event : LinkEvent) : Publisher := { p with history := p.history ++ [event] }

def closeBroker (p : Publisher) : Publisher := if p.ownsBroker then p.record .brokerClosed else p

def connect (p : Publisher) (network : Network) : Publisher × Attempt Unit :=
  match Mqtt.connect ⟨[]⟩ p.broker [] network with
  | .error fault => (p.closeBroker, .error fault)
  | .ok shaken =>
    let link : Link := ⟨p.opened, Connection.ofShaken [] false shaken⟩
    ({ p with running := some link, opened := p.opened + 1, history := p.history ++ [.opened p.opened] },
      .ok ())

def start (p : Publisher) (brokerStart : Attempt Unit) (network : Network) : Publisher × Attempt Unit :=
  if p.ownsBroker then
    let p := p.record .brokerStarted
    match brokerStart with
    | .error fault => (p, .error fault)
    | .ok () => p.connect network
  else p.connect network

def stop (p : Publisher) : Publisher :=
  let p := match p.running with
    | some link => { p.record (.closed link.number) with running := none }
    | none => p
  p.closeBroker

-- What cannot be published is lost, and nobody is told.
def receive (p : Publisher) (d : Delivery) : Publisher :=
  match p.running with
  | none => p
  | some link =>
    let topic := p.template.render d.device d.telemetry.name
    match Subscriber.publish link.connection topic .atMostOnce (p.layout.encode d.telemetry) with
    | .error _ => p
    | .ok connection => { p with running := some { link with connection := connection } }

end Publisher
end FieldGateway.Mqtt
