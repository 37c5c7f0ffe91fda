import FieldGateway.Mqtt.Connection
import FieldGateway.Mqtt.Inbound

-- The driver for devices that publish their values: it subscribes to their topics and hands
-- what arrives to the buses.
namespace FieldGateway.Mqtt

inductive LinkEvent where
  | opened (number : Nat)
  | closed (number : Nat)
  | brokerStarted
  | brokerClosed
deriving DecidableEq

structure Link where
  number : Nat
  connection : Connection

structure Subscriber where
  settings : SubscriberSettings
  quality : Quality
  devices : Table Device
  buses : List Bus
  running : Option Link
  opened : Nat
  history : List LinkEvent

namespace Subscriber

def driverType : Text := "mqtt"

def ofProperties (properties : Json.Fields) (buses : List Bus) : Attempt Subscriber :=
  match SubscriberSettings.ofProperties properties with
  | .error defect => .error (.configInvalid defect.message)
  | .ok settings => match Network.Host.read settings.broker.host with
    | .error defect => .error (.configInvalid defect.message)
    | .ok _ => match Quality.ofLevel settings.broker.quality with
      | .error defect => .error (.configInvalid defect.message)
      | .ok quality => .ok ⟨settings, quality, [], buses, none, 0, []⟩

def subscriptions (s : Subscriber) : List Subscription := [⟨s.settings.subTopic, s.quality⟩]

def start (s : Subscriber) (disk : Disk) (network : Network) : Subscriber × Attempt Unit :=
  match s.running with
  | some _ => (s, .ok ())
  | none => match connect disk s.settings.broker s.subscriptions network with
    | .error fault => (s, .error fault)
    | .ok shaken =>
      let link : Link := ⟨s.opened, Connection.ofShaken s.subscriptions true shaken⟩
      ({ s with running := some link, opened := s.opened + 1, history := s.history ++ [.opened s.opened] },
        .ok ())

def stop (s : Subscriber) : Subscriber :=
  match s.running with
  | none => s
  | some link => { s with running := none, history := s.history ++ [.closed link.number] }

def names (s : Subscriber) : List Text := s.devices.names

-- The first configuration of a name counts until the device is removed.
def addDevice (s : Subscriber) (d : Device) : Subscriber × Attempt Unit :=
  match d.checkDriver driverType with
  | .error fault => (s, .error fault)
  | .ok () => match Table.get? d.name s.devices with
    | some _ => (s, .ok ())
    | none => ({ s with devices := Table.put d.name d s.devices }, .ok ())

def removeDevice (s : Subscriber) (name : Text) : Subscriber :=
  { s with devices := Table.erase name s.devices }

def receive (s : Subscriber) (stamp : Int) (m : Message) : Subscriber :=
  { s with buses := Bus.forwardAll s.buses (deliveries s.devices s.settings.subTopic stamp m) }

def commandTopic (s : Subscriber) (device : Text) : Attempt Text :=
  match s.settings.pubTopic with
  | some topic => .ok (Text.substitute '+' device topic)
  | none => .error (.configInvalid "pubTopic is required to run commands")

-- A full queue makes the caller wait until the oldest request has left it.
def publish (c : Connection) (topic : Text) (quality : Quality) (payload : Text) : Attempt Connection :=
  match c.publishOutcome topic with
  | .queued => .ok (c.publish topic quality payload)
  | .waiting => .ok (c.drain.publish topic quality payload)
  | .refused => .error (publishFault topic)

def runCommand (s : Subscriber) (c : Command) : Subscriber × Attempt Unit :=
  match Table.get? c.device s.devices with
  | none => (s, .error (.unknownEntity ("device " ++ c.device)))
  | some _ => match s.commandTopic c.device with
    | .error fault => (s, .error fault)
    | .ok topic => match s.running with
      | none => (s, .error (.connectionFailure "the MQTT driver is not started"))
      | some link =>
        match publish link.connection topic s.quality (Json.object [(c.resource, c.value)]).render with
        | .error fault => (s, .error fault)
        | .ok connection => ({ s with running := some { link with connection := connection } }, .ok ())

inductive Action where
  | add (device : Device)
  | remove (name : Text)
  | message (stamp : Int) (message : Message)

def apply (s : Subscriber) : Action → Subscriber
  | .add device => (s.addDevice device).1
  | .remove name => s.removeDevice name
  | .message stamp m => s.receive stamp m

def run (s : Subscriber) (actions : List Action) : Subscriber := actions.foldl apply s

end Subscriber
end FieldGateway.Mqtt
