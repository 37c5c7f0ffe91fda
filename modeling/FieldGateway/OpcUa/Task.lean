import FieldGateway.OpcUa.Request
import FieldGateway.Telemetry.Bus
import FieldGateway.Telemetry.Conversion

-- Every device is served by a task of its own. It opens a session with the device's server,
-- subscribes to the device's resources, and forwards what changes until it is cancelled or the
-- server hangs up.
namespace FieldGateway.OpcUa

structure Change where
  handle : Nat
  reading : Json

inductive Notification where
  | changes (items : List Change)
  | event
  | trouble (message : Text)

-- Changes of unknown handles, and readings that do not suit their resource, are left out.
def Change.telemetry? (known : List Request) (stamp : Int) (c : Change) : Option Telemetry :=
  match Request.find? c.handle known with
  | none => none
  | some request => match Telemetry.ofReading request.resource.name request.resource.type stamp c.reading with
    | .ok telemetry => some telemetry
    | .error _ => none

def Notification.items : Notification → List Change
  | .changes items => items
  | .event | .trouble _ => []

inductive SessionEvent where
  | connect (task : Nat)
  | opened (task : Nat)
  | subscribe (task : Nat) (requests : List Request)
  | subscribed (task : Nat)
  | closed (task : Nat)

def SessionEvent.task : SessionEvent → Nat
  | connect task | opened task | subscribe task _ | subscribed task | closed task => task

inductive Phase where
  | created
  | connecting (fresh : List Request)
  | subscribing (fresh : List Request)
  | abandoning (fault : Fault)
  | recording (fresh : List Request)
  | failed (fault : Fault)
  | looking (known : List Request)
  | reading (known : List Request)
  -- Working off the changes of one notification. Nobody asks about cancellation in between.
  | forwarding (known : List Request) (next : Change) (rest : List Change)
  | closing
  | ended

structure Task where
  device : Device
  carried : List Request
  generation : Nat
  cancelled : Bool
  phase : Phase
  inbox : List Notification
  severed : Bool
  answer : Option (Attempt Unit)

namespace Phase

-- Until it serves, a task that was cancelled is dropped where it stands.
def isStarting : Phase → Bool
  | created | connecting _ | subscribing _ | abandoning _ | recording _ => true
  | failed _ | looking _ | reading _ | forwarding _ _ _ | closing | ended => false

def isEnded : Phase → Bool
  | ended => true
  | _ => false

def isSubscribed : Phase → Bool
  | recording _ | looking _ | reading _ | forwarding _ _ _ | closing => true
  | created | connecting _ | subscribing _ | abandoning _ | failed _ | ended => false

def workOff (known : List Request) : List Change → Phase
  | [] => .looking known
  | next :: rest => .forwarding known next rest

end Phase

inductive TaskMove where
  | drop
  | begin
  | connected
  | refused (fault : Fault)
  | subscribed
  | unsubscribed (fault : Fault)
  | sessionClosed
  | record
  | forget
  | look
  | read
  | forward (stamp : Int)
  | rest
  | hangUp

inductive RegistryEdit where
  | keep
  | record (known : List Request)
  | forget

structure Effect where
  task : Task
  events : List SessionEvent := []
  edit : RegistryEdit := .keep
  deliveries : List Delivery := []

namespace Task

def create (device : Device) (carried : List Request) (generation : Nat) : Task :=
  ⟨device, carried, generation, false, .created, [], false, none⟩

def hasEnded (t : Task) : Bool := t.phase.isEnded

def cancel (t : Task) : Task := { t with cancelled := true }

def enter (t : Task) (phase : Phase) : Task := { t with phase := phase }

def plan (t : Task) : Except AddressingDefect (Text × List Request) :=
  match endpointOf t.device with
  | .error defect => .error defect
  | .ok endpoint => (Request.ofDevice t.device).map fun fresh => (endpoint, fresh)

def step (number : Nat) (t : Task) (move : TaskMove) : Option Effect :=
  match move, t.phase with
  | .drop, phase =>
    if t.cancelled && phase.isStarting then some { task := t.enter .ended } else none
  | .begin, .created => match t.plan with
    | .error defect => some { task := t.enter (.failed (.configInvalid defect.message)) }
    | .ok (_, fresh) => some { task := t.enter (.connecting fresh), events := [.connect number] }
  | .connected, .connecting fresh =>
    some { task := t.enter (.subscribing fresh), events := [.opened number, .subscribe number fresh] }
  | .refused fault, .connecting _ => some { task := t.enter (.failed fault) }
  | .subscribed, .subscribing fresh =>
    some { task := t.enter (.recording fresh), events := [.subscribed number] }
  | .unsubscribed fault, .subscribing _ =>
    some { task := t.enter (.abandoning fault), events := [.closed number] }
  | .sessionClosed, .abandoning fault => some { task := t.enter (.failed fault) }
  | .sessionClosed, .closing => some { task := t.enter .ended }
  | .record, .recording fresh =>
    let known := Request.merge t.carried fresh
    some { task := { t with phase := .looking known, answer := some (.ok ()) }, edit := .record known }
  | .forget, .failed fault =>
    some { task := { t with phase := .ended, answer := some (.error fault) }, edit := .forget }
  | .look, .looking known =>
    if t.cancelled then some { task := t.enter .closing, events := [.closed number] }
    else some { task := t.enter (.reading known) }
  | .read, .reading known => match t.inbox with
    | [] => none
    | notification :: rest =>
      some { task := { t with phase := .workOff known notification.items, inbox := rest } }
  | .forward stamp, .forwarding known next rest =>
    some {
      task := t.enter (.workOff known rest)
      deliveries := ((next.telemetry? known stamp).map fun telemetry => ⟨t.device.name, telemetry⟩).toList }
  | .rest, .reading known =>
    if t.inbox.isEmpty && !t.severed then some { task := t.enter (.looking known) } else none
  | .hangUp, .reading _ =>
    if t.inbox.isEmpty && t.severed then some { task := t.enter .closing, events := [.closed number] }
    else none
  | _, _ => none

end Task
end FieldGateway.OpcUa
