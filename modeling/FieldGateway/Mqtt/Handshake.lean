import FieldGateway.Disk
import FieldGateway.Mqtt.Settings
import FieldGateway.Text.Blank
import FieldGateway.Topic.Filter
import FieldGateway.Waiting

-- Connecting to a broker: the client introduces itself, subscribes to its filters one after
-- the other, and waits each time for the broker's answer.
namespace FieldGateway.Mqtt

structure Message where
  topic : Text
  payload : List Byte
deriving DecidableEq

structure Subscription where
  filter : Text
  quality : Quality
deriving DecidableEq

-- What the network reports while a client waits.
inductive Event where
  | accepted (sessionPresent : Bool)
  | acknowledged (codes : List Nat)
  | published (message : Message)
  | other
  | lost
  | silence
deriving DecidableEq

structure Introduction where
  clientId : Option Text
  keepAlive : Nat
  login : Option (Text × Text)
deriving DecidableEq

inductive Packet where
  | connect (introduction : Introduction)
  | subscribe (subscription : Subscription)
  | publish (topic : Text) (quality : Quality) (payload : Text)
  | disconnect
deriving DecidableEq

def handshakeLimit : Duration := .ofMilliseconds 10000

def standardKeepAlive : Nat := 60

def readLogin (disk : Disk) (s : BrokerSettings) : Attempt (Option (Text × Text)) :=
  match s.login, s.credentialDir with
  | .anonymous, _ => .ok none
  | .basic, none => .error (.configInvalid "credentialDir is required for the basic auth mode")
  | .basic, some dir =>
    match disk.text (Path.ofText dir ++ [("username" : Text)]) with
    | .error fault => .error (.io fault.message)
    | .ok username => match disk.text (Path.ofText dir ++ [("password" : Text)]) with
      | .error fault => .error (.io fault.message)
      | .ok password => .ok (some (Text.trim username, Text.trim password))

def introduce (disk : Disk) (s : BrokerSettings) : Attempt Introduction :=
  match Network.Host.read s.host with
  | .error defect => .error (.configInvalid defect.message)
  | .ok _ => match readLogin disk s with
    | .error fault => .error fault
    | .ok login =>
      .ok ⟨s.clientId.filter (!·.isEmpty), if s.keepAlive = 0 then standardKeepAlive else s.keepAlive, login⟩

def unreachable (host : Text) : Fault :=
  .connectionFailure ("failed to connect to MQTT broker " ++ host)

-- Everything before the awaited event is read and dropped.
def await (host : Text) (awaited : Event → Bool) : List Event → Attempt (List Event)
  | [] => .error (timedOut handshakeLimit)
  | .silence :: _ => .error (timedOut handshakeLimit)
  | .lost :: _ => .error (unreachable host)
  | event :: events => if awaited event then .ok events else await host awaited events

def isAccepted : Event → Bool
  | .accepted _ => true
  | _ => false

def isAcknowledged : Event → Bool
  | .acknowledged _ => true
  | _ => false

def subscribeFault (filter : Text) : Fault := .connectionFailure ("failed to subscribe to " ++ filter)

-- The client asks for nothing that is no filter. What an acknowledgement says is not looked at.
def awaitEach (host : Text) : List Subscription → List Event → Attempt (List Event)
  | [], events => .ok events
  | s :: subscriptions, events =>
    if Topic.isFilter s.filter then
      match await host isAcknowledged events with
      | .error fault => .error fault
      | .ok rest => awaitEach host subscriptions rest
    else .error (subscribeFault s.filter)

structure Shaken where
  sent : List Packet
  unread : List Event
deriving DecidableEq

def handshake (disk : Disk) (s : BrokerSettings) (subscriptions : List Subscription)
    (events : List Event) : Attempt Shaken :=
  match introduce disk s with
  | .error fault => .error fault
  | .ok introduction => match await s.host isAccepted events with
    | .error fault => .error fault
    | .ok events => match awaitEach s.host subscriptions events with
      | .error fault => .error fault
      | .ok unread => .ok ⟨.connect introduction :: subscriptions.map .subscribe, unread⟩

-- A handshake that took too long counts as a connection that failed.
def asConnectionFailure (f : Fault) : Fault :=
  if f.kind = .timeout then .connectionFailure f.detail else f

abbrev Network := Nat → List Event

def connect (disk : Disk) (s : BrokerSettings) (subscriptions : List Subscription)
    (network : Network) : Attempt Shaken :=
  let policy : RetryPolicy := ⟨s.retries, s.retryInterval⟩
  match (policy.run fun n => handshake disk s subscriptions (network n)).result with
  | .ok shaken => .ok shaken
  | .error fault => .error (asConnectionFailure fault)

end FieldGateway.Mqtt
