import FieldGateway.OpcUa.Settings
import FieldGateway.OpcUa.Task

-- The driver for OPC-UA devices: the registered devices, their tasks, and the calls that wait
-- for tasks. Everything that happens is one of a few moves, and they come in any order that
-- `apply` lets them. Each move touches the registry, a task or a call once.
namespace FieldGateway.OpcUa

structure Entry where
  device : Device
  requests : List Request
  -- The task that this registration created. Tasks are numbered in order of creation.
  task : Nat
  generation : Nat

inductive Call where
  -- It has taken these tasks out of the registry. It cancels them one by one, in any order, and
  -- goes on when all of them have ended.
  | clearing (uncancelled tasks : List Nat)
  | replacing (old created : Nat)
  | waiting (created : Nat)
  | returned (result : Attempt Unit)

structure Fleet where
  settings : Settings
  buses : List Bus
  entries : Table Entry
  tasks : List Task
  -- That of the next registration. It stands for a counter of 64 bits, and never wraps here.
  generation : Nat
  calls : List Call
  history : List SessionEvent

inductive Move where
  | add (device : Device)
  | remove (name : Text)
  | stop
  | cancelled (call task : Nat)
  | joined (call : Nat)
  | answered (call : Nat)
  | gaveUp (call : Nat)
  | task (number : Nat) (move : TaskMove)
  | notify (task : Nat) (notification : Notification)
  | sever (task : Nat)

-- A task only touches the entry of its own generation.
def RegistryEdit.apply (name : Text) (generation : Nat) (edit : RegistryEdit) (entries : Table Entry) :
    Table Entry :=
  match edit, Table.get? name entries with
  | .record known, some entry =>
    if entry.generation = generation then Table.put name { entry with requests := known } entries
    else entries
  | .forget, some entry => if entry.generation = generation then Table.erase name entries else entries
  | _, _ => entries

namespace Fleet

def driverType : Text := "opcua"

def reportInterval : Nat := 500

def idle (settings : Settings) (buses : List Bus) : Fleet := ⟨settings, buses, [], [], 1, [], []⟩

def ofProperties (properties : Json.Fields) (buses : List Bus) : Attempt Fleet :=
  match Settings.ofProperties properties with
  | .error defect => .error (.configInvalid defect.message)
  | .ok settings => .ok (idle settings buses)

def names (f : Fleet) : List Text := Table.names f.entries

def requests? (f : Fleet) (name : Text) : Option (List Request) :=
  (Table.get? name f.entries).map Entry.requests

def hasEnded (f : Fleet) (task : Nat) : Bool := (f.tasks[task]?).any Task.hasEnded

def setTask (f : Fleet) (task : Nat) (t : Task) : Fleet := { f with tasks := f.tasks.set task t }

def cancelTask (f : Fleet) (task : Nat) : Fleet := { f with tasks := f.tasks.modify task Task.cancel }

def openCall (f : Fleet) (call : Call) : Fleet := { f with calls := f.calls ++ [call] }

def setCall (f : Fleet) (call : Nat) (c : Call) : Fleet := { f with calls := f.calls.set call c }

def register (f : Fleet) (device : Device) (carried : List Request) : Fleet :=
  { f with
    entries := Table.put device.name ⟨device, carried, f.tasks.length, f.generation⟩ f.entries
    tasks := f.tasks ++ [Task.create device carried f.generation]
    generation := f.generation + 1 }

-- The same configuration again changes nothing. Another one takes the place of the old one,
-- whose requests it inherits and whose task it lets end first.
def add (f : Fleet) (device : Device) : Fleet :=
  match device.checkDriver driverType with
  | .error fault => f.openCall (.returned (.error fault))
  | .ok () =>
    match Table.get? device.name f.entries with
    | none => (f.register device []).openCall (.waiting f.tasks.length)
    | some entry =>
      if entry.device == device then f.openCall (.returned (.ok ()))
      else ((f.cancelTask entry.task).register device entry.requests).openCall
        (.replacing entry.task f.tasks.length)

def remove (f : Fleet) (name : Text) : Fleet :=
  match Table.get? name f.entries with
  | none => f.openCall (.returned (.ok ()))
  | some entry =>
    { f with entries := Table.erase name f.entries }.openCall (.clearing [entry.task] [entry.task])

def registered (f : Fleet) : List Nat := f.entries.map fun entry => entry.2.task

def stop (f : Fleet) : Fleet := { f with entries := [] }.openCall (.clearing f.registered f.registered)

def cancel (f : Fleet) (call task : Nat) : Option Fleet :=
  match f.calls[call]? with
  | some (.clearing uncancelled tasks) =>
    if task ∈ uncancelled then
      some ((f.cancelTask task).setCall call (.clearing (uncancelled.erase task) tasks))
    else none
  | _ => none

def join (f : Fleet) (call : Nat) : Option Fleet :=
  match f.calls[call]? with
  | some (.clearing [] tasks) =>
    if tasks.all f.hasEnded then some (f.setCall call (.returned (.ok ()))) else none
  | some (.replacing old created) =>
    if f.hasEnded old then some (f.setCall call (.waiting created)) else none
  | _ => none

-- A task that ends without an answer was cancelled before it had one.
def takeAnswer (f : Fleet) (call : Nat) : Option Fleet :=
  match f.calls[call]? with
  | some (.waiting task) => match f.tasks[task]? with
    | some t => match t.answer with
      | some result => some (f.setCall call (.returned result))
      | none => if t.hasEnded then some (f.setCall call (.returned (.ok ()))) else none
    | none => none
  | _ => none

def giveUp (f : Fleet) (call : Nat) : Option Fleet :=
  match f.calls[call]? with
  | some (.waiting task) => match f.tasks[task]? with
    | some t => if t.answer.isNone then some (f.setCall call (.returned (.ok ()))) else none
    | none => none
  | _ => none

def absorb (f : Fleet) (number : Nat) (t : Task) (e : Effect) : Fleet :=
  { f with
    buses := Bus.forwardAll f.buses e.deliveries
    entries := e.edit.apply t.device.name t.generation f.entries
    tasks := f.tasks.set number e.task
    history := f.history ++ e.events }

def moveTask (f : Fleet) (number : Nat) (move : TaskMove) : Option Fleet :=
  match f.tasks[number]? with
  | some t => (t.step number move).map (f.absorb number t)
  | none => none

def notify (f : Fleet) (task : Nat) (notification : Notification) : Option Fleet :=
  match f.tasks[task]? with
  | some t =>
    if t.phase.isSubscribed && !t.severed then
      some (f.setTask task { t with inbox := t.inbox ++ [notification] })
    else none
  | none => none

def sever (f : Fleet) (task : Nat) : Option Fleet :=
  match f.tasks[task]? with
  | some t => if t.phase.isSubscribed then some (f.setTask task { t with severed := true }) else none
  | none => none

def apply (f : Fleet) : Move → Option Fleet
  | .add device => some (f.add device)
  | .remove name => some (f.remove name)
  | .stop => some f.stop
  | .cancelled call task => f.cancel call task
  | .joined call => f.join call
  | .answered call => f.takeAnswer call
  | .gaveUp call => f.giveUp call
  | .task number move => f.moveTask number move
  | .notify task notification => f.notify task notification
  | .sever task => f.sever task

def run (f : Fleet) : List Move → Option Fleet
  | [] => some f
  | move :: moves => match f.apply move with
    | some f => run f moves
    | none => none

def result? (f : Fleet) (call : Nat) : Option (Attempt Unit) :=
  match f.calls[call]? with
  | some (.returned result) => some result
  | _ => none

end Fleet
end FieldGateway.OpcUa
